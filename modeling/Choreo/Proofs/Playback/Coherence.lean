import Choreo.Proofs.Playback.Floor
import Choreo.Proofs.Playback.Regions
import Choreo.Proofs.Timeline

/-!
# Where a session is, and for how long

A session writes down that it began, which region it entered and which command it executed. Its
position, its region and its three timelines say the same whenever its playhead waits, however often it
was paused, sought through and looped: `CooperativeRun.is_coherent`.

In between, from one command to the next, there are moments where the session is in no region. A
playhead does not give way to anyone there.
-/

namespace Choreo

/-! ## Whereabouts -/

structure Whereabouts where
  /-- The position of the command that was executed last. -/
  command : Option Nat := none
  /-- The position of the region that was entered last. -/
  region : Option Nat := none
  /-- The milliseconds that were played since the session began or went back to the beginning. -/
  sinceStart : Nat := 0
  /-- The milliseconds that were played since the region was entered. -/
  inRegion : Nat := 0
  /-- The milliseconds that were played since the command was executed. -/
  atCommand : Nat := 0
deriving DecidableEq

namespace Whereabouts

def note (program : Program) (w : Whereabouts) (beat : Beat) : Whereabouts :=
  match beat.happening with
  | .noted (.reached _ .began) => { w with sinceStart := 0 }
  | .noted (.reached _ (.entered r)) => { w with region := some r, inRegion := 0 }
  | .noted (.reached _ (.executed i)) =>
    match program.commands[i]? with
    | some c =>
      { w with
        command := some i
        atCommand := 0
        sinceStart := if program.goesBack beat.ignoreLooping c then 0 else w.sinceStart }
    | none => w
  | _ => w

def play (w : Whereabouts) (millis : Nat) : Whereabouts :=
  { w with
    sinceStart := w.sinceStart + millis
    inRegion := w.inRegion + millis
    atCommand := w.atCommand + millis }

def execute (w : Whereabouts) (i : Nat) (c : Command) (enters loops : Bool) : Whereabouts where
  command := some i
  region := if enters then some c.region else w.region
  sinceStart := if loops then 0 else w.sinceStart
  inRegion := if enters then 0 else w.inRegion
  atCommand := 0

theorem foldl_note_sent (program : Program) (time : Nat) (ignoreLooping : Bool)
    (envelopes : List Envelope) (w : Whereabouts) :
    ((envelopes.map Event.sent).map (Beat.note time ignoreLooping)).foldl (note program) w = w := by
  induction envelopes with
  | nil => rfl
  | cons _ _ ih => exact ih

theorem foldl_note_execute (s : Session) {i : Nat} {c : Command}
    (hcommand : s.program.commands[i]? = some c) (w : Whereabouts) (time : Nat)
    (ignoreLooping : Bool) (id : SessionId) (envelopes : List Envelope) :
    ((s.arrivals id c ++ .reached id (.executed i) :: envelopes.map Event.sent).map
        (Beat.note time ignoreLooping)).foldl (note s.program) w =
      w.execute i c (s.applySeek.region ≠ some c.region) (s.program.goesBack ignoreLooping c) := by
  have hsought (w : Whereabouts) :
      ((s.pendingSeek.toList.map fun target => Event.reached id (.sought target)).map
        (Beat.note time ignoreLooping)).foldl (note s.program) w = w := by
    cases s.pendingSeek <;> rfl
  rw [List.map_append, List.map_cons, List.foldl_append, List.foldl_cons, foldl_note_sent,
    Session.arrivals, List.map_append, List.foldl_append, hsought]
  by_cases hregion : s.applySeek.region = some c.region
  · simp [hregion, execute, note, Beat.note, hcommand]
  · simp [hregion, execute, note, Beat.note, hcommand]

end Whereabouts

/-! ## Executing a command -/

namespace Session

variable {s : Session} {c : Command} {v : Surroundings} {i : Nat} {region : Region}

theorem countdownAtEntry_regionTime (s : Session) (c : Command) :
    (s.countdownAtEntry c).1.regionTime = s.regionTime := by
  unfold countdownAtEntry
  split
  · rfl
  · rfl
  · split
    · rfl
    · split
      · split <;> rfl
      · rfl

theorem execute_regionTime (hregion : s.program.regions[c.region]? = some region)
    (v : Surroundings) (i : Nat) :
    (s.execute v i c).1.regionTime =
      if s.applySeek.region = some c.region then s.regionTime
      else s.regionTime.restart region.wait v.now := by
  have hprogram : s.applySeek.program = s.program := by rw [s.applySeek_eq]
  have hkept : s.applySeek.regionTime = s.regionTime := by rw [s.applySeek_eq]
  obtain ⟨_, hperform⟩ := (s.applySeek.arrive i c v.now).1.perform_fst v.settings c
  simp only [execute]
  rw [hperform]
  simp only [arrive, enter]
  by_cases hthere : s.applySeek.region = some c.region
  · simp [hthere, hkept]
  · simp [hthere, hprogram, hregion, hkept, countdownAtEntry_regionTime]

end Session

/-! ## What a playhead relies on -/

namespace Session

variable {s t : Session} {w : Whereabouts} {now clock clock' i : Nat} {c : Command} {region : Region}

/-- The session goes on or is paused, and the timeline of its script knows it. -/
structure Going (s : Session) (w : Whereabouts) (now : Nat) : Prop where
  status : s.status = .playing ∨ s.status = .paused
  scriptTime : s.scriptTime.Tracks s.program.totalWait (s.status = .paused) now
    (w.sinceStart * 1000000)

/-- The session is at a command, and its region and its timelines are those of the command. -/
structure At (s : Session) (w : Whereabouts) (now i : Nat) (c : Command) (region : Region) :
    Prop where
  current : s.current = some i
  command : s.program.commands[i]? = some c
  exists_region : s.program.regions[c.region]? = some region
  region_eq : s.region = some c.region
  executed : w.command = some i
  entered : w.region = some c.region
  regionTime : s.regionTime.Tracks region.wait (s.status = .paused) now (w.inRegion * 1000000)
  commandTime : s.commandTime.Tracks c.wait (s.status = .paused) now (w.atCommand * 1000000)

theorem Going.playing (h : s.Going w now) (hplaying : s.status ≠ .paused) : s.status = .playing :=
  h.status.resolve_right hplaying

theorem Going.congr (h : s.Going w now) (hprogram : t.program = s.program)
    (hstatus : t.status = s.status) (hscriptTime : t.scriptTime = s.scriptTime) :
    t.Going w now := by
  refine ⟨?_, ?_⟩
  · rw [hstatus]
    exact h.status
  · rw [hstatus, hprogram, hscriptTime]
    exact h.scriptTime

theorem At.congr (h : s.At w now i c region) (hprogram : t.program = s.program)
    (hstatus : t.status = s.status) (hcurrent : t.current = s.current)
    (hregion : t.region = s.region) (hregionTime : t.regionTime = s.regionTime)
    (hcommandTime : t.commandTime = s.commandTime) : t.At w now i c region := by
  obtain ⟨hcurrent', hcommand, hexists, hregion', hexecuted, hentered, hregionTime', hcommandTime'⟩ := h
  rw [← hprogram] at hcommand hexists
  rw [← hcurrent] at hcurrent'
  rw [← hregion] at hregion'
  rw [← hstatus, ← hregionTime] at hregionTime'
  rw [← hstatus, ← hcommandTime] at hcommandTime'
  exact ⟨hcurrent', hcommand, hexists, hregion', hexecuted, hentered, hregionTime', hcommandTime'⟩

theorem Going.execute (h : s.Going w now) (v : Surroundings) (i : Nat) (c : Command) (enters : Bool) :
    (s.execute v i c).1.Going (w.execute i c enters false) now := by
  have hscriptTime : (s.execute v i c).1.scriptTime = s.scriptTime := by
    obtain ⟨_, _, hexecute⟩ := s.execute_fst v i c
    rw [hexecute]
  exact ⟨(h.congr (s.execute_program v i c) (s.execute_status v i c) hscriptTime).status,
    (h.congr (s.execute_program v i c) (s.execute_status v i c) hscriptTime).scriptTime⟩

theorem Going.pause (h : s.Going w now) (hpause : s.pause? now = some t) : t.Going w now := by
  obtain ⟨hplaying, rfl⟩ := eq_of_pause? hpause
  obtain ⟨-, hscriptTime⟩ := h
  rw [hplaying] at hscriptTime
  exact ⟨.inr rfl, hscriptTime.pause⟩

theorem At.pause (h : s.At w now i c region) (hpause : s.pause? now = some t) :
    t.At w now i c region := by
  obtain ⟨hplaying, rfl⟩ := eq_of_pause? hpause
  have hregionTime := h.regionTime
  have hcommandTime := h.commandTime
  rw [hplaying] at hregionTime hcommandTime
  exact ⟨h.current, h.command, h.exists_region, h.region_eq, h.executed, h.entered,
    hregionTime.pause, hcommandTime.pause⟩

theorem Going.resume (h : s.Going w now) (hresume : s.resume? now = some t) : t.Going w now := by
  obtain ⟨hpaused, rfl⟩ := eq_of_resume? hresume
  obtain ⟨-, hscriptTime⟩ := h
  rw [hpaused] at hscriptTime
  exact ⟨.inl rfl, hscriptTime.resume⟩

theorem At.resume (h : s.At w now i c region) (hresume : s.resume? now = some t) :
    t.At w now i c region := by
  obtain ⟨hpaused, rfl⟩ := eq_of_resume? hresume
  have hregionTime := h.regionTime
  have hcommandTime := h.commandTime
  rw [hpaused] at hregionTime hcommandTime
  exact ⟨h.current, h.command, h.exists_region, h.region_eq, h.executed, h.entered,
    hregionTime.resume, hcommandTime.resume⟩

def playedUntil (s : Session) (clock clock' : Nat) : Nat :=
  if s.status = .playing then clock' - clock else 0

theorem tracks_wait {t : Timeline} {total : Duration} {millis : Nat}
    (hstatus : s.status = .playing ∨ s.status = .paused)
    (h : t.Tracks total (s.status = .paused) (clock * 1000000) (millis * 1000000))
    (hle : clock ≤ clock') :
    t.Tracks total (s.status = .paused) (clock' * 1000000)
      ((millis + s.playedUntil clock clock') * 1000000) := by
  have hwait := h.wait (Nat.mul_le_mul_right 1000000 hle)
  have hplayed : (millis * 1000000 +
      if decide (s.status = .paused) then 0 else clock' * 1000000 - clock * 1000000) =
      (millis + s.playedUntil clock clock') * 1000000 := by
    unfold playedUntil
    rcases hstatus with hstatus | hstatus
    · simp only [hstatus, reduceCtorEq, decide_false, Bool.false_eq_true, if_false, if_true]
      omega
    · simp [hstatus]
  rwa [hplayed] at hwait

theorem Going.wait (h : s.Going w (clock * 1000000)) (hle : clock ≤ clock') :
    s.Going (w.play (s.playedUntil clock clock')) (clock' * 1000000) :=
  ⟨h.status, tracks_wait h.status h.scriptTime hle⟩

theorem At.wait (h : s.At w (clock * 1000000) i c region)
    (hstatus : s.status = .playing ∨ s.status = .paused) (hle : clock ≤ clock') :
    s.At (w.play (s.playedUntil clock clock')) (clock' * 1000000) i c region :=
  ⟨h.current, h.command, h.exists_region, h.region_eq, h.executed, h.entered,
    tracks_wait hstatus h.regionTime hle, tracks_wait hstatus h.commandTime hle⟩

end Session

namespace Playhead

variable {h head : Playhead} {v : Surroundings} {s t : Session} {w : Whereabouts}
variable {now clock clock' i : Nat} {c : Command} {region : Region}

inductive Relies (h : Playhead) (s : Session) (w : Whereabouts) (now : Nat) : Prop where
  | opening (hstage : h.stage = .opening) (hstopped : s.status = .stopped)
      (hregion : s.region = none) (htotal : s.scriptTime.total = s.program.totalWait)
  /-- The session has begun, or gone back to the beginning, and comes to its first command next. -/
  | settingOut (hstage : h.stage = .turn) (hgoing : s.Going w now) (hplaying : s.status = .playing)
      (hregion : s.region = none)
  | there {i : Nat} {c : Command} {region : Region} (hstage : h.stage ≠ .opening)
      (hgoing : s.Going w now) (hat : s.At w now i c region)
      (hindex : s.index = i ∨ h.waits = false ∧ s.index = i + 1)

theorem Relies.pause (hrelies : h.Relies s w now) (hturn : h.stage ≠ .turn)
    (hpause : s.pause? now = some t) : h.Relies t w now := by
  obtain ⟨hplaying, heq⟩ := Session.eq_of_pause? hpause
  cases hrelies with
  | opening _ hstopped =>
    rw [hplaying] at hstopped
    cases hstopped
  | settingOut hstage => exact absurd hstage hturn
  | there hstage hgoing hat hindex =>
    refine .there hstage (hgoing.pause hpause) (hat.pause hpause) ?_
    rw [heq]
    exact hindex

theorem Relies.resume (hrelies : h.Relies s w now) (hresume : s.resume? now = some t) :
    h.Relies t w now := by
  obtain ⟨hpaused, heq⟩ := Session.eq_of_resume? hresume
  cases hrelies with
  | opening _ hstopped =>
    rw [hpaused] at hstopped
    cases hstopped
  | settingOut _ _ hplaying =>
    rw [hpaused] at hplaying
    cases hplaying
  | there hstage hgoing hat hindex =>
    refine .there hstage (hgoing.resume hresume) (hat.resume hresume) ?_
    rw [heq]
    exact hindex

theorem Relies.seek {line : Nat} (hrelies : h.Relies s w now) (hseek : s.seek? line = some t) :
    h.Relies t w now := by
  obtain ⟨target, -, -, rfl⟩ := Session.eq_of_seek? hseek
  cases hrelies with
  | opening hstage hstopped hregion htotal => exact .opening hstage hstopped hregion htotal
  | settingOut hstage hgoing hplaying hregion =>
    exact .settingOut hstage (hgoing.congr rfl rfl rfl) hplaying hregion
  | there hstage hgoing hat hindex =>
    exact .there hstage (hgoing.congr rfl rfl rfl) (hat.congr rfl rfl rfl rfl rfl rfl) hindex

theorem Relies.wait (hrelies : h.Relies s w (clock * 1000000)) (hle : clock ≤ clock') :
    h.Relies s (w.play (s.playedUntil clock clock')) (clock' * 1000000) := by
  cases hrelies with
  | opening hstage hstopped hregion htotal => exact .opening hstage hstopped hregion htotal
  | settingOut hstage hgoing hplaying hregion =>
    exact .settingOut hstage (hgoing.wait hle) hplaying hregion
  | there hstage hgoing hat hindex =>
    exact .there hstage (hgoing.wait hle) (hat.wait hgoing.status hle) hindex

/-! ### Coming to a command -/

theorem Relies.stays (hrelies : h.Relies s w now) (hthere : s.applySeek.region = some c.region)
    (hregion : s.program.regions[c.region]? = some region) :
    s.regionTime.Tracks region.wait (s.status = .paused) now (w.inRegion * 1000000) ∧
      w.region = some c.region := by
  have hsame : s.region = some c.region := by
    rw [s.applySeek_eq] at hthere
    simp only at hthere
    split at hthere
    · cases hthere
    · exact hthere
  cases hrelies with
  | opening _ _ hnone | settingOut _ _ _ hnone =>
    rw [hnone] at hsame
    cases hsame
  | @there j d region' _ _ hat =>
    have hname : d.region = c.region := Option.some.inj (hat.region_eq.symm.trans hsame)
    have hregion' := hat.exists_region
    rw [hname, hregion] at hregion'
    rw [Option.some.inj hregion', ← hname]
    exact ⟨hat.regionTime, hat.entered⟩

theorem Relies.execute (hrelies : h.Relies s w v.now) (hplaying : s.status = .playing)
    (hcommand : s.program.commands[i]? = some c)
    (hregion : s.program.regions[c.region]? = some region) (loops : Bool) :
    (s.execute v i c).1.At (w.execute i c (s.applySeek.region ≠ some c.region) loops) v.now i c
      region := by
  have hregionTime := s.execute_regionTime hregion v i
  obtain ⟨regionTime, countdown, hexecute⟩ := s.execute_fst v i c
  rw [hexecute] at hregionTime ⊢
  have hstands : decide (s.status = .paused) = false := by
    rw [hplaying]
    rfl
  have hcommandTime := (s.commandTime.tracks_restart c.wait v.now)
  rw [← hstands, ← Nat.zero_mul 1000000] at hcommandTime
  by_cases hthere : s.applySeek.region = some c.region
  · obtain ⟨htracks, hentered⟩ := hrelies.stays hthere hregion
    rw [if_pos hthere] at hregionTime
    simp only at hregionTime
    subst hregionTime
    refine ⟨rfl, hcommand, hregion, rfl, rfl, ?_, ?_, hcommandTime⟩
    · simp [Whereabouts.execute, hthere, hentered]
    · simpa [Whereabouts.execute, hthere] using htracks
  · rw [if_neg hthere] at hregionTime
    simp only at hregionTime
    subst hregionTime
    have htracks := (s.regionTime.tracks_restart region.wait v.now)
    rw [← hstands, ← Nat.zero_mul 1000000] at htracks
    refine ⟨rfl, hcommand, hregion, rfl, rfl, ?_, ?_, hcommandTime⟩
    · simp [Whereabouts.execute, hthere]
    · simpa [Whereabouts.execute, hthere] using htracks

theorem Relies.going (hrelies : h.Relies s w now) (hstage : h.stage ≠ .opening) : s.Going w now := by
  cases hrelies with
  | opening hopening => exact absurd hopening hstage
  | settingOut _ hgoing => exact hgoing
  | there _ hgoing => exact hgoing

/-- Only where a playhead looks for its next command, playing, may its session be nowhere. -/
theorem Relies.placed (hrelies : h.Relies s w now) (hstage : h.stage ≠ .opening)
    (hturn : h.stage = .turn → s.status = .paused) :
    ∃ i c region, s.At w now i c region ∧ (s.index = i ∨ h.waits = false ∧ s.index = i + 1) := by
  cases hrelies with
  | opening hopening => exact absurd hopening hstage
  | settingOut hstage' _ hplaying =>
    rw [hturn hstage'] at hplaying
    cases hplaying
  | there _ _ hat hindex => exact ⟨_, _, _, hat, hindex⟩

theorem stage_of_waits (hwaits : h.waits = true) : h.stage ≠ .opening ∧ h.stage ≠ .turn := by
  unfold waits at hwaits
  constructor <;> intro hstage <;> simp [hstage] at hwaits

theorem Relies.waiting (hrelies : h.Relies s w now) (hwaits : h.waits = true) :
    s.Going w now ∧ ∃ i c region, s.At w now i c region ∧ s.index = i := by
  obtain ⟨hopening, hturn⟩ := stage_of_waits hwaits
  obtain ⟨i, c, region, hat, hindex⟩ := hrelies.placed hopening (absurd · hturn)
  refine ⟨hrelies.going hopening, i, c, region, hat, hindex.resolve_right ?_⟩
  rw [hwaits]
  simp

theorem Relies.began (hrelies : h.Relies s w v.now) (hstage : h.stage = .opening)
    (hbegin : s.begin? v.now = some t) :
    { h with lastCheck := v.now, stage := .turn }.Relies t { w with sinceStart := 0 } v.now := by
  obtain ⟨-, -, rfl⟩ := Session.eq_of_begin? hbegin
  cases hrelies with
  | opening _ _ hregion htotal =>
    have hscriptTime := s.scriptTime.tracks_start v.now
    rw [htotal, ← Nat.zero_mul 1000000] at hscriptTime
    exact .settingOut rfl ⟨.inl rfl, hscriptTime⟩ rfl hregion
  | settingOut hturn | there hturn => simp [hstage] at hturn

/-- Going back to its beginning, a session is nowhere, and its time starts anew. -/
theorem Relies.wentBack (hrelies : h.Relies s w v.now) (hstage : h.stage = .turn)
    (hplaying : s.status ≠ .paused) (i : Nat) (c : Command) (entering : Bool) :
    { h.land v.now s with stage := .turn }.Relies ((s.execute v i c).1.restart v.now)
      (w.execute i c entering true) v.now := by
  have hgoing := hrelies.going (by simp [hstage])
  have hstatus := (s.execute_restart_status v i c).trans (hgoing.playing hplaying)
  have hscriptTime := (s.execute v i c).1.scriptTime.tracks_restart
    (s.execute v i c).1.program.totalWait v.now
  rw [← Nat.zero_mul 1000000] at hscriptTime
  refine .settingOut rfl ⟨.inl hstatus, ?_⟩ hstatus rfl
  rw [hstatus]
  exact hscriptTime

theorem Relies.executed (hrelies : h.Relies s w v.now) (hstage : h.stage = .turn)
    (hplaying : s.status ≠ .paused) (hshaped : s.program.Shaped)
    (hcommand : s.program.commands[i]? = some c) :
    (s.execute v i c).1.Going (w.execute i c (s.applySeek.region ≠ some c.region) false) v.now ∧
      ∃ region, (s.execute v i c).1.At
        (w.execute i c (s.applySeek.region ≠ some c.region) false) v.now i c region := by
  have hgoing := hrelies.going (by simp [hstage])
  obtain ⟨region, hregion⟩ := hshaped.exists_regionOf? hcommand
  exact ⟨hgoing.execute v i c _, region,
    hrelies.execute (hgoing.playing hplaying) hcommand hregion false⟩

theorem Relies.step (hrelies : h.Relies s w v.now)
    (hflag : s.cancelled = true ↔ s.status = .cancelled) (hshaped : s.program.Shaped)
    (id : SessionId) (time : Nat) (hnext : (h.step v s).next.head? = some head) :
    head.Relies (h.step v s).session
      ((((h.step v s).events id).map (Beat.note time v.ignoreLooping)).foldl
        (Whereabouts.note s.program) w) v.now := by
  have hwaiting (hstage : h.stage = .wait ∨ h.stage = .waitRest) : h.waits = true :=
    (waits_awake (v := v) hstage .wait (.inl rfl)).2
  have houtcome := h.step_outcome v s
  generalize h.step v s = move at houtcome hnext
  cases houtcome with
  | refused | stopped | ranOut => cases hnext
  | began hstage hbegin =>
    cases hnext
    exact hrelies.began hstage hbegin
  | resting hstage hstop hpaused =>
    cases hnext
    have hopening : h.stage ≠ .opening := by simp [hstage]
    obtain ⟨i, c, region, hat, hindex⟩ := hrelies.placed hopening fun _ => hpaused
    exact .there (by simp) (hrelies.going hopening) hat (hindex.imp_right (⟨rfl, ·.2⟩))
  | @wentBack c hstage hstop hplaying hcommand hback =>
    cases hnext
    rw [s.wentBack_events (live_of_stopped? hflag hstop), Whereabouts.foldl_note_execute s hcommand,
      decide_eq_true hback]
    exact hrelies.wentBack hstage hplaying s.target c _
  | @wentOn c hstage hstop hplaying hcommand hback hskips =>
    cases hnext
    obtain ⟨hgoing, region, hat⟩ := hrelies.executed hstage hplaying hshaped hcommand
    have hindex := congrArg (· + 1) (s.execute_index v s.target c)
    rw [s.wentOn_events (live_of_stopped? hflag hstop), Whereabouts.foldl_note_execute s hcommand,
      decide_eq_false hback]
    exact .there (by simp) (hgoing.congr rfl rfl rfl) (hat.congr rfl rfl rfl rfl rfl rfl)
      (.inr ⟨rfl, hindex⟩)
  | @held c hstage hstop hplaying hcommand hskips =>
    obtain ⟨_, hhead, -, hopening⟩ :=
      head?_waiting ((h.land v.now s).charge (c.wait - s.pingOffset)) v
    rw [hhead] at hnext
    cases hnext
    obtain ⟨hgoing, region, hat⟩ := hrelies.executed hstage hplaying hshaped hcommand
    have hback : ¬s.program.goesBack v.ignoreLooping c := not_goesBack_of_not_skipsWait hskips
    rw [s.held_events (live_of_stopped? hflag hstop), Whereabouts.foldl_note_execute s hcommand,
      decide_eq_false hback]
    exact .there hopening (hgoing.congr rfl rfl rfl) (hat.congr rfl rfl rfl rfl rfl rfl)
      (.inl (s.execute_index v s.target c))
  | rested hstage =>
    cases hnext
    have hopening : h.stage ≠ .opening := by simp [hstage]
    obtain ⟨i, c, region, hat, hindex⟩ := hrelies.placed hopening (by simp [hstage])
    exact .there (by simp) (hrelies.going hopening) hat (hindex.imp_right (⟨rfl, ·.2⟩))
  | cut hstage | suspended hstage | waited hstage =>
    cases hnext
    obtain ⟨hgoing, i, c, region, hat, hindex⟩ := hrelies.waiting (hwaiting hstage)
    exact .there (by simp) hgoing hat (.inl hindex)
  | done hstage hstop hseek hplaying hbudget =>
    cases hnext
    obtain ⟨hgoing, i, c, region, hat, hindex⟩ := hrelies.waiting (hwaiting hstage)
    exact .there (by simp) (hgoing.congr rfl rfl rfl) (hat.congr rfl rfl rfl rfl rfl rfl)
      (.inr ⟨rfl, congrArg (· + 1) hindex⟩)
  | passed hstage =>
    cases hnext
    obtain ⟨hgoing, i, c, region, hat, hindex⟩ := hrelies.waiting (by simp [waits, hstage])
    exact .there (by simp) (hgoing.congr rfl rfl rfl) (hat.congr rfl rfl rfl rfl rfl rfl)
      (.inr ⟨rfl, congrArg (· + 1) hindex⟩)

theorem step_pendingSeek (h : Playhead) (v : Surroundings) (s : Session) :
    (h.step v s).session.pendingSeek = s.pendingSeek ∨ (h.step v s).session.pendingSeek = none := by
  have houtcome := h.step_outcome v s
  generalize h.step v s = move at houtcome
  cases houtcome with
  | refused => exact .inl rfl
  | began hstage hbegin =>
    obtain ⟨-, -, rfl⟩ := Session.eq_of_begin? hbegin
    exact .inl rfl
  | stopped hstage hstop =>
    obtain ⟨_, _, rfl⟩ := Session.eq_of_stopped? hstop
    exact .inl rfl
  | ranOut =>
    refine .inr ?_
    show s.applySeek.pendingSeek = none
    rw [s.applySeek_eq]
  | wentBack | wentOn | held => exact .inr (s.execute_pendingSeek v _ _)
  | _ => exact .inl rfl

end Playhead

/-! ## The run of a session -/

namespace Solo

variable {punctual : Prop} {settings : Settings} {id : SessionId} {story : List Beat} {solo : Solo}

theorem Run.pendingSeek_lt (run : Run punctual settings id story solo) :
    ∀ target, solo.session.pendingSeek = some target →
      target < solo.session.program.commands.length := by
  induction run with
  | launched clock ignoreLooping start script lines =>
    cases start with
    | top filter =>
      intro target hseek
      cases hseek
    | line number =>
      simp only [Start.prepare]
      cases hseek : (Session.create script (Start.line number).filter?
          (.compile lines (Start.line number).filter?)).seek? number with
      | none =>
        intro target hnone
        cases hnone
      | some t =>
        obtain ⟨target, htarget, -, rfl⟩ := Session.eq_of_seek? hseek
        intro target' htarget'
        cases htarget'
        exact positionOfLine?_lt htarget
  | @step story beats solo solo' run hstep ih =>
    rw [run.program_eq hstep]
    cases hstep with
    | idle | passed => exact ih
    | paused _ hpause =>
      obtain ⟨-, rfl⟩ := Session.eq_of_pause? hpause
      exact ih
    | resumed _ hresume =>
      obtain ⟨-, rfl⟩ := Session.eq_of_resume? hresume
      exact ih
    | sought _ hseek =>
      obtain ⟨target, htarget, -, rfl⟩ := Session.eq_of_seek? hseek
      intro target' htarget'
      cases htarget'
      exact positionOfLine?_lt htarget
    | cancelled _ =>
      obtain ⟨cancelled, hcancel, -⟩ := solo.session.cancel?_getD
      rw [hcancel]
      exact ih
    | @played head v =>
      intro target htarget
      have htarget' : (head.step v solo.session).session.pendingSeek = some target := htarget
      rcases head.step_pendingSeek v solo.session with hsame | hnone
      · exact ih target (hsame.symm.trans htarget')
      · rw [hnone] at htarget'
        cases htarget'

theorem Run.stage_of_asleep (run : Run punctual settings id story solo) :
    ∀ wake head, solo.place = .asleep wake head → head.stage ≠ .opening ∧ head.stage ≠ .turn := by
  induction run with
  | launched =>
    intro wake head hplace
    cases hplace
  | @step story beats solo solo' run hstep ih =>
    cases hstep with
    | @played head v =>
      intro wake head' hplace
      have hplace' : (head.step v solo.session).next.place solo.clock = .asleep wake head' := hplace
      cases hnext : (head.step v solo.session).next with
      | sleep duration head'' =>
        rw [hnext] at hplace'
        cases hplace'
        exact Playhead.stage_of_sleep hnext
      | _ =>
        rw [hnext] at hplace'
        cases hplace'
    | @passed time =>
      intro wake head hplace
      have hplace' : solo.place.wakeAt time = .asleep wake head := hplace
      cases hbefore : solo.place with
      | asleep wake' head' =>
        rw [hbefore, Place.wakeAt] at hplace'
        split at hplace'
        · cases hplace'
        · cases hplace'
          exact ih wake head hbefore
      | _ =>
        rw [hbefore] at hplace'
        cases hplace'
    | _ => exact ih

end Solo

/-- The state of a session says where it is, and agrees with what has happened. -/
structure Session.Coherent (s : Session) (w : Whereabouts) (now i : Nat) (c : Command)
    (region : Region) : Prop where
  status : s.status = .playing ∨ s.status = .paused
  current : s.current = some i
  command : s.program.commands[i]? = some c
  index : s.index = i ∨ s.index = i + 1
  exists_region : s.program.regions[c.region]? = some region
  region_eq : s.region = some c.region
  pendingSeek : ∀ target, s.pendingSeek = some target → target < s.program.commands.length
  executed : w.command = some i
  entered : w.region = some c.region
  scriptTime : s.scriptTime.Shows s.program.totalWait (s.status = .paused) now
    (w.sinceStart * 1000000)
  regionTime : s.regionTime.Shows region.wait (s.status = .paused) now (w.inRegion * 1000000)
  commandTime : s.commandTime.Shows c.wait (s.status = .paused) now (w.atCommand * 1000000)

/-! ## Every run -/

def Task.plays (id : SessionId) (stage : Stage) : Task → Bool
  | .play i head => i = id ∧ head.stage = stage
  | _ => false

theorem Task.underway_of_plays {id : SessionId} {task : Task} (h : task.plays id .turn = true) :
    task.underway = true := by
  cases task with
  | play i head =>
    simp only [Task.plays, decide_eq_true_eq] at h
    exact decide_eq_true h.2
  | _ => cases h

namespace Playback

variable {punctual : Prop} {settings : Settings} {history : List Occurrence} {p q : Playback}
variable {act : Act} {id : SessionId} {s : Session} {solo solo' : Solo}

def Occurrence.played (id : SessionId) (o : Occurrence) : Nat :=
  if (o.before.session? id).map Session.status = some .playing then
    o.after.clock - o.before.clock
  else 0

/-- Where a session of a program is, and for how long it was playing since it came there. -/
def whereabouts (program : Program) (id : SessionId) : List Occurrence → Whereabouts
  | [] => {}
  | o :: earlier =>
    ((o.beats id).foldl (Whereabouts.note program) (whereabouts program id earlier)).play (o.played id)

theorem act_of_beats {o : Occurrence} {time : Nat} {ignoreLooping : Bool} {happening : Happening}
    (hbeats : o.beats id = [⟨time, ignoreLooping, happening⟩]) :
    (happening = .paused → o.act = .serve (.pause id) true) ∧
      (happening = .cancelled → o.act = .serve (.cancel id) true) := by
  have hhappenings : o.happenings id = [happening] := by
    have hmap := congrArg (List.map Beat.happening) hbeats
    rw [Occurrence.beats, List.map_map] at hmap
    exact (List.map_id _).symm.trans hmap
  unfold Occurrence.happenings at hhappenings
  split at hhappenings
  case h_6 i head hact =>
    split at hhappenings
    · obtain ⟨event, -, rfl⟩ := List.mem_map.1 (hhappenings ▸ List.mem_singleton_self happening)
      exact ⟨by simp, by simp⟩
    · cases hhappenings
  case h_7 => cases hhappenings
  all_goals
    next hact =>
      split at hhappenings
      · next hi =>
        cases hhappenings
        subst hi
        simp [hact]
      · cases hhappenings

theorem Shows.mem_ready (h : p.Shows id solo) {head : Playhead} (hplace : solo.place = .ready head) :
    .play id head ∈ p.ready := by
  have hplaces := h.places
  rw [hplace] at hplaces
  have hmem : Place.ready head ∈ p.places id := by
    rw [hplaces]
    exact List.mem_singleton_self _
  rcases List.mem_append.1 hmem with hready | hasleep
  · obtain ⟨head', hhead, heq⟩ := List.mem_map.1 hready
    cases heq
    obtain ⟨task, htask, hplay⟩ := List.mem_filterMap.1 hhead
    rw [← Task.eq_play_of_head?_eq_some hplay]
    exact htask
  · obtain ⟨sleeper, -, hsleeper⟩ := List.mem_filterMap.1 hasleep
    obtain ⟨_, -, heq⟩ := Option.map_eq_some_iff.1 hsleeper
    cases heq

theorem Shows.played (h : p.Shows id solo) (h' : q.Shows id solo') :
    Occurrence.played id ⟨p, act, q⟩ = solo.session.playedUntil solo.clock solo'.clock := by
  unfold Occurrence.played Session.playedUntil
  rw [h.session, h.clock, h'.clock]
  simp

/-- A playhead does not sleep before it begins, nor on its way to the next command. -/
theorem Shows.plays (hshows : p.Shows id solo) {story : List Beat}
    (hrun : Solo.Run punctual settings id story solo) {head : Playhead}
    (hhead : solo.place.head? = some head) (hstage : head.stage = .opening ∨ head.stage = .turn) :
    p.ready.any (Task.plays id head.stage) = true := by
  cases hplace : solo.place with
  | ready head' =>
    rw [hplace] at hhead
    cases hhead
    exact List.any_eq_true.2 ⟨_, hshows.mem_ready hplace, by simp [Task.plays]⟩
  | asleep wake head' =>
    rw [hplace] at hhead
    cases hhead
    obtain ⟨hopening, hturn⟩ := hrun.stage_of_asleep wake head hplace
    exact absurd hstage (by simp [hopening, hturn])
  | gone =>
    rw [hplace] at hhead
    cases hhead

theorem Shows.relies_step (hshows : p.Shows id solo)
    (hfloor : p.KeepsFloor act)
    {story : List Beat} (hrun : Solo.Run punctual settings id story solo) {w : Whereabouts}
    (hrelies : solo.active = true → ∀ head, solo.place.head? = some head →
      head.Relies solo.session w solo.now)
    (hseen : Occurrence.Seen punctual id ⟨p, act, q⟩ solo solo') (hshows' : q.Shows id solo')
    (hactive : solo'.active = true) {head : Playhead} (hhead : solo'.place.head? = some head) :
    head.Relies solo'.session
      (((Occurrence.beats id ⟨p, act, q⟩).foldl (Whereabouts.note solo.session.program) w).play
        (Occurrence.played id ⟨p, act, q⟩)) solo'.now := by
  have hplayed : Occurrence.played id ⟨p, act, q⟩ =
      solo.session.playedUntil solo.clock solo'.clock := hshows.played hshows'
  have hstill (hclock : solo'.clock = solo.clock) : Occurrence.played id ⟨p, act, q⟩ = 0 := by
    rw [hplayed, hclock, Session.playedUntil, Nat.sub_self]
    split <;> rfl
  cases hseen with
  | beside hbeats =>
    rw [hbeats, hstill rfl]
    exact hrelies hactive head hhead
  | asked hasked hbeats =>
    have hclock : solo'.clock = solo.clock := by
      cases hasked <;> rfl
    rw [hbeats, hstill hclock]
    cases hasked with
    | paused hactive' hpause =>
      have hact : act = .serve (.pause id) true := (act_of_beats hbeats).1 rfl
      have hturn : head.stage ≠ .turn := by
        intro hstage
        obtain ⟨task, hmem, hplays⟩ := List.any_eq_true.1 (hshows.plays hrun hhead (.inr hstage))
        have hrun := hfloor task hmem (Task.underway_of_plays (hstage ▸ hplays))
        rw [hact] at hrun
        cases hrun
      exact (hrelies hactive head hhead).pause hturn hpause
    | resumed hactive' hresume => exact (hrelies hactive head hhead).resume hresume
    | sought hactive' hseek => exact (hrelies hactive head hhead).seek hseek
    | cancelled => cases hactive
  | @played head' hact hplace hbeats =>
    have hhead' := Place.head?_ready hplace
    have hnext := ((head'.step p.surroundings solo.session).next.head?_place solo.clock).symm.trans hhead
    have hnow : p.surroundings.now = solo.now := hshows.now
    have hbefore : solo.active = true := by
      have hand : (solo.active && _) = true := hactive
      exact (Bool.and_eq_true_iff.1 hand).1
    have hrelies' := hrelies hbefore head' hhead'
    rw [← hnow] at hrelies'
    rw [hbeats, hstill rfl]
    show head.Relies _ _ solo.now
    rw [← hnow]
    exact hrelies'.step hrun.cancelled_iff hrun.shaped id solo.clock hnext
  | @passed time hact htime =>
    rw [beats_of_pass hact, hplayed]
    rw [solo.place.head?_wakeAt time] at hhead
    exact (hrelies hactive head hhead).wait (Nat.le_max_left _ _)

theorem CooperativeRun.relies (run : CooperativeRun punctual settings history p) (id : SessionId) :
    (p.Lacks id ∧ story id history = []) ∨
      ∃ solo, p.Shows id solo ∧ Solo.Run punctual settings id (story id history) solo ∧
        (solo.active = true → ∀ head, solo.place.head? = some head →
          head.Relies solo.session (whereabouts solo.session.program id history) solo.now) := by
  induction run with
  | start => exact .inl ⟨lacks_start settings id, rfl⟩
  | @step history p q act run hstep hfloor ih =>
    rw [story_cons]
    rcases ih with ⟨hlacks, hstory⟩ | ⟨solo, hshows, hrun, hrelies⟩
    · rw [hstory, List.append_nil]
      rcases hlacks.steps hstep with ⟨hbeats, hlacks'⟩ | ⟨start, script, lines, hbeats, hshows⟩
      · rw [hbeats]
        exact .inl ⟨hlacks', rfl⟩
      · rw [hbeats]
        refine .inr ⟨_, hshows, .launched p.clock p.policy.ignoreLooping start script lines, ?_⟩
        intro _ head hhead
        cases hhead
        obtain ⟨pendingSeek, epoch, hprepare⟩ := start.prepare_eq script lines
        rw [hprepare]
        exact .opening rfl rfl rfl rfl
    · obtain ⟨solo', hseen, hshows'⟩ := hshows.sees hstep
      have hstep' := hshows.step run.run.settings_eq hseen
      refine .inr ⟨solo', hshows', hrun.step hstep', fun hactive head hhead => ?_⟩
      rw [hrun.program_eq hstep']
      exact hshows.relies_step hfloor hrun hrelies hseen hshows' hactive hhead

/-- Whenever all tasks of a cooperative run wait, an active session plays or is paused at a command that
exists. It is in the region of the command, any seek that is pending has a command to go to, and its
timelines show how long the program, the region and the command take and for how long each of them was
played. -/
theorem CooperativeRun.is_coherent (run : CooperativeRun punctual settings history p)
    (hready : p.ready = []) (hs : p.session? id = some s) (hactive : p.isActive id = true) :
    ∃ i c region, s.Coherent (whereabouts s.program id history) p.now i c region := by
  obtain ⟨hlacks, -⟩ | ⟨solo, hshows, hrun, hrelies⟩ := run.relies id
  · rw [hlacks.active] at hactive
    cases hactive
  · have hsession := hshows.session
    rw [hs] at hsession
    cases hsession
    rw [hshows.active] at hactive
    obtain ⟨head, hhead⟩ := Option.ne_none_iff_exists'.1 (hrun.ordered.present hactive)
    have hstage : ¬(head.stage = .opening ∨ head.stage = .turn) := by
      intro hstage
      have hplays := hshows.plays hrun hhead hstage
      rw [hready] at hplays
      cases hplays
    obtain ⟨hopening, hturn⟩ := not_or.1 hstage
    have hrelies' := hrelies hactive head hhead
    have hgoing := hrelies'.going hopening
    obtain ⟨i, c, region, hat, hindex⟩ := hrelies'.placed hopening (absurd · hturn)
    rw [hshows.now]
    exact ⟨i, c, region,
      { status := hgoing.status
        current := hat.current
        command := hat.command
        index := hindex.imp_right And.right
        exists_region := hat.exists_region
        region_eq := hat.region_eq
        pendingSeek := hrun.pendingSeek_lt
        executed := hat.executed
        entered := hat.entered
        scriptTime := hgoing.scriptTime.shows
        regionTime := hat.regionTime.shows
        commandTime := hat.commandTime.shows }⟩

/-- A session that loops, is paused in its first region and goes on to its second one. -/
def winding : List Occurrence × Playback :=
  let text := "#region A\n/a <wait.0.06>\n/b <wait.0.09>\n#endregion\n/c <wait.0.03>\n/d <wait.0.03>\n/loop"
  let launched := ask (.launch (.inline "wind" text) (.top none)) ([], start {})
  let played := wait 230 (follow (fun _ => 230) 60 launched.1 launched.2)
  let paused := ask (.pause ⟨1⟩) played
  let rested := wait 250 (follow (fun _ => 250) 60 paused.1 paused.2)
  let resumed := ask (.resume ⟨1⟩) rested
  wait 425 (follow (fun _ => 425) 60 resumed.1 resumed.2)

theorem cooperativeRun_winding : CooperativeRun True {} winding.1 winding.2 := by
  have hlaunch := (@CooperativeRun.ask True {} ([], start {}) .start) (.launch (.inline "wind"
    "#region A\n/a <wait.0.06>\n/b <wait.0.09>\n#endregion\n/c <wait.0.03>\n/d <wait.0.03>\n/loop")
    (.top none)) (List.forall_mem_nil _)
  have hplayed := (hlaunch.follow (fun _ => 230) 60).wait 230 (by decide +kernel)
  have hpaused := hplayed.ask (.pause ⟨1⟩) (by decide +kernel)
  have hrested := (hpaused.follow (fun _ => 250) 60).wait 250 (by decide +kernel)
  have hresumed := hrested.ask (.resume ⟨1⟩) (by decide +kernel)
  exact (hresumed.follow (fun _ => 425) 60).wait 425 (by decide +kernel)

theorem is_coherent_winding :
    winding.2.ready = [] ∧ winding.2.isActive ⟨1⟩ = true ∧
      ∃ s, winding.2.session? ⟨1⟩ = some s ∧
        s.current = some 3 ∧ s.region = some 1 ∧
        (s.scriptTime.elapsed winding.2.now).nanos = 195000000 ∧
        (s.regionTime.elapsed winding.2.now).nanos = 32000000 ∧
        (s.commandTime.elapsed winding.2.now).nanos = 2000000 := by
  -- Decided at once, so that the run is worked out only once.
  obtain ⟨hready, hactive, hnow, hplace⟩ :
      winding.2.ready = [] ∧ winding.2.isActive ⟨1⟩ = true ∧ winding.2.now ≤ maxNanos ∧
        (winding.2.session? ⟨1⟩).map (whereabouts ·.program ⟨1⟩ winding.1) =
          some ⟨some 3, some 1, 195, 32, 2⟩ := by decide +kernel
  obtain ⟨s, hs, hwhere⟩ := Option.map_eq_some_iff.1 hplace
  obtain ⟨i, c, region, hcoherent⟩ := cooperativeRun_winding.is_coherent hready hs hactive
  have hexecuted := hcoherent.executed
  have hentered := hcoherent.entered
  have hscript := hcoherent.scriptTime.elapsed hnow
  have hregion := hcoherent.regionTime.elapsed hnow
  have hcommand := hcoherent.commandTime.elapsed hnow
  rw [hwhere] at hexecuted hentered hscript hregion hcommand
  exact ⟨hready, hactive, s, hs, hcoherent.current.trans hexecuted.symm,
    hcoherent.region_eq.trans hentered.symm, hscript, hregion, hcommand⟩

end Playback

end Choreo
