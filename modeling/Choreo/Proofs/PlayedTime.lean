import Choreo.Proofs.Timeline

/-!
# The time that was played

A timeline may be started, paused, resumed and cleared in any order, also when there is nothing to pause
or to resume. `Timeline.played` counts the nanoseconds since the last start in which no pause went on,
without a look at what the timeline keeps. `Timeline.shows_what_was_played` says that the timeline shows
just that.
-/

namespace Choreo.Timeline

/-! ## Histories -/

inductive Act where
  | start (now : Instant)
  | restart (total : Duration) (now : Instant)
  | pause (now : Instant)
  | resume (now : Instant)
  | clear
deriving DecidableEq

namespace Act

def time? : Act → Option Instant
  | .start now | .restart _ now | .pause now | .resume now => some now
  | .clear => none

def on (act : Act) (t : Timeline) : Timeline :=
  match act with
  | .start now => t.start now
  | .restart total now => t.restart total now
  | .pause now => t.pause now
  | .resume now => t.resume now
  | .clear => t.clear

def isBy (time : Instant) (act : Act) : Bool := act.time?.all (· ≤ time)

def isPause : Act → Bool
  | .pause _ => true
  | _ => false

def isStart : Act → Bool
  | .start _ | .restart _ _ => true
  | _ => false

end Act

/-- A timeline of some length after a history, the latest act first. -/
def after (total : Duration) (history : List Act) : Timeline := history.foldr Act.on { total }

def times (history : List Act) : List Instant := history.filterMap Act.time?

/-- The last start and the pauses and resumptions after it, unless the timeline was cleared since. -/
def sinceStart? : List Act → Option (Instant × List Act)
  | [] | .clear :: _ => none
  | .start now :: _ | .restart _ now :: _ => some (now, [])
  | act :: earlier => (sinceStart? earlier).map fun (start, since) => (start, act :: since)

/-- Whether a pause goes on at an instant: what was done last up to then is a pause. -/
def restsAt (since : List Act) (time : Instant) : Bool :=
  (since.find? (Act.isBy time)).any Act.isPause

/-- For how many nanoseconds a timeline was played up to now. -/
def played (history : List Act) (now : Instant) : Nat :=
  match sinceStart? history with
  | none => 0
  | some (start, since) => (List.range' start (now - start)).countP (!restsAt since ·)

/-- Nothing is cut off where the played time is worked out now, or where a pause ends now. -/
structure Exact (t : Timeline) (now : Instant) : Prop where
  elapsed : ∀ start : Nat, t.startedAt = some start →
    start ≤ t.reach now ∧ t.reach now - start ≤ maxNanos ∧ t.pausedFor.nanos ≤ t.reach now - start
  resume : ∀ pausedAt : Nat, t.pausedAt = some pausedAt →
    pausedAt ≤ now ∧ t.pausedFor.nanos + (now - pausedAt) ≤ maxNanos

variable {total : Duration} {history more since : List Act} {act : Act} {t : Timeline}
variable {start now now' time : Nat}

theorem after_append (total : Duration) (more history : List Act) :
    after total (more ++ history) = more.foldr Act.on (after total history) :=
  List.foldr_append

/-! ## Pauses -/

theorem restsAt_of_le (h : ∀ time' ∈ times since, time' ≤ time) :
    restsAt since time = since.head?.any Act.isPause := by
  cases since with
  | nil => rfl
  | cons act since =>
    have hact : act.isBy time = true := by
      rw [Act.isBy, Option.all_eq_true]
      intro time' htime
      have hmem : time' ∈ times (act :: since) :=
        List.mem_filterMap.2 ⟨act, List.mem_cons_self, htime⟩
      exact decide_eq_true (h time' hmem)
    rw [restsAt, List.find?_cons_of_pos hact]
    rfl

theorem restsAt_cons_of_lt (hact : act.time? = some now) (hlt : time < now) :
    restsAt (act :: since) time = restsAt since time := by
  rw [restsAt, List.find?_cons_of_neg]
  · rfl
  · simpa [Act.isBy, hact] using hlt

theorem pause_of_isPaused (h : t.isPaused = true) (now : Instant) : t.pause now = t := by
  refine if_neg fun hboth => ?_
  rw [isPaused, Option.isSome_iff_ne_none] at h
  exact h (Option.isNone_iff_eq_none.1 hboth.2)

theorem resume_of_not_isPaused (h : t.isPaused = false) (now : Instant) : t.resume now = t := by
  have hnone : t.pausedAt = none := by simpa [isPaused] using h
  rw [resume, hnone]

/-! ## What was played -/

theorem mem_times_of_sinceStart? (h : sinceStart? history = some (start, since)) :
    start ∈ times history ∧ ∀ time ∈ times since, time ∈ times history := by
  induction history generalizing since with
  | nil => cases h
  | cons act history ih =>
    cases act with
    | clear => cases h
    | start now | restart _ now =>
      cases h
      exact ⟨List.mem_cons_self, nofun⟩
    | pause now | resume now =>
      obtain ⟨⟨start', since'⟩, hsince, heq⟩ := Option.map_eq_some_iff.1 h
      cases heq
      obtain ⟨hstart, htimes⟩ := ih hsince
      refine ⟨List.mem_cons_of_mem _ hstart, fun time htime => ?_⟩
      rcases List.mem_cons.1 htime with rfl | htime
      · exact List.mem_cons_self
      · exact List.mem_cons_of_mem _ (htimes time htime)

/-- Nothing is played in a pause, and all of the time outside of one. -/
theorem played_wait (hsince : sinceStart? history = some (start, since)) (hstart : start ≤ time)
    (hle : time ≤ now) (hpast : ∀ time' ∈ times since, time' ≤ time) :
    played history now =
      played history time + if since.head?.any Act.isPause then 0 else now - time := by
  have hsplit : List.range' start (now - start) =
      List.range' start (time - start) ++ List.range' time (now - time) := by
    have hjoin := @List.range'_append_1 start (time - start) (now - time)
    rw [show start + (time - start) = time by omega,
      show time - start + (now - time) = now - start by omega] at hjoin
    exact hjoin.symm
  have hlate : ∀ time' ∈ List.range' time (now - time),
      restsAt since time' = since.head?.any Act.isPause := by
    intro time' hmem
    have hbound := (List.mem_range'_1.1 hmem).1
    exact restsAt_of_le fun time'' h => Nat.le_trans (hpast time'' h) hbound
  simp only [played, hsince]
  rw [hsplit, List.countP_append, Nat.add_left_cancel_iff]
  cases hpaused : since.head?.any Act.isPause with
  | true =>
    rw [if_pos rfl, List.countP_eq_zero]
    intro time' hmem
    rw [hlate time' hmem, hpaused]
    decide
  | false =>
    have hall : ∀ time' ∈ List.range' time (now - time), (!restsAt since time') = true := by
      intro time' hmem
      rw [hlate time' hmem, hpaused]
      rfl
    rw [if_neg Bool.false_ne_true, List.countP_eq_length.2 hall, List.length_range']

theorem played_le (history : List Act) (hle : now ≤ now') :
    played history now ≤ played history now' := by
  unfold played
  split
  · exact Nat.le_refl 0
  · next start since _ =>
    have hprefix : (List.range' start (now - start)).Sublist (List.range' start (now' - start)) :=
      List.range'_sublist_right.2 (Nat.sub_le_sub_right hle start)
    exact hprefix.countP_le

/-- What is done later does not change what was played up to now. -/
theorem played_append (hmore : ∀ act ∈ more, act.isStart = false ∧ act ≠ .clear)
    (hlater : ∀ time ∈ times more, now ≤ time) : played (more ++ history) now = played history now := by
  induction more with
  | nil => rfl
  | cons act more ih =>
    have hrest := ih (fun act' h => hmore act' (List.mem_cons_of_mem _ h)) fun time h =>
      hlater time (by
        rw [times, List.filterMap_cons]
        split
        · exact h
        · exact List.mem_cons_of_mem _ h)
    rw [← hrest, List.cons_append]
    obtain ⟨hstart, hclear⟩ := hmore act List.mem_cons_self
    have hsince : sinceStart? (act :: (more ++ history)) =
        (sinceStart? (more ++ history)).map fun (start, since) => (start, act :: since) := by
      cases act with
      | clear => exact absurd rfl hclear
      | start now | restart _ now => cases hstart
      | pause now | resume now => rfl
    obtain ⟨time, htime⟩ : ∃ time, act.time? = some time := by
      cases act with
      | clear => exact absurd rfl hclear
      | _ => exact ⟨_, rfl⟩
    have hle : now ≤ time :=
      hlater time (List.mem_filterMap.2 ⟨act, List.mem_cons_self, htime⟩)
    unfold played
    rw [hsince]
    cases sinceStart? (more ++ history) with
    | none => rfl
    | some place =>
      obtain ⟨start, since⟩ := place
      refine List.countP_congr fun time' hmem => ?_
      obtain ⟨hfirst, hlast⟩ := List.mem_range'_1.1 hmem
      rw [restsAt_cons_of_lt htime (by omega)]

/-- What is done now, as long as nothing starts, does not change what was played up to now. -/
theorem played_cons (hact : act.time? = some now) (hstart : act.isStart = false) :
    played (act :: history) now = played history now := by
  have hclear : act ≠ .clear := by
    rintro rfl
    cases hact
  refine @played_append history [act] now ?_ ?_
  · intro act' hact'
    obtain rfl := List.mem_singleton.1 hact'
    exact ⟨hstart, hclear⟩
  · intro time htime
    rw [times, List.filterMap_cons_some hact] at htime
    exact Nat.le_of_eq (List.mem_singleton.1 htime).symm

/-! ## What a timeline shows -/

/-- The timeline was not started, or was played for what its history counts. -/
def Reflects (t : Timeline) (history : List Act) (now : Nat) : Prop :=
  match sinceStart? history with
  | none => t.startedAt = none ∧ t.pausedAt = none
  | some (_, since) =>
    ∃ length, t.Tracks length (since.head?.any Act.isPause) now (played history now)

theorem Reflects.wait (h : t.Reflects history time) (hpast : ∀ time' ∈ times history, time' ≤ time)
    (hle : time ≤ now) : t.Reflects history now := by
  unfold Reflects at h ⊢
  cases hsince : sinceStart? history with
  | none => simpa only [hsince] using h
  | some place =>
    obtain ⟨start, since⟩ := place
    simp only [hsince] at h ⊢
    obtain ⟨length, htracks⟩ := h
    obtain ⟨hstart, htimes⟩ := mem_times_of_sinceStart? hsince
    rw [played_wait hsince (hpast start hstart) hle fun time' h => hpast time' (htimes time' h)]
    exact ⟨length, htracks.wait hle⟩

theorem Reflects.pause (h : t.Reflects history now) :
    (t.pause now).Reflects (.pause now :: history) now := by
  have hplayed : played (.pause now :: history) now = played history now := played_cons rfl rfl
  unfold Reflects at h ⊢
  simp only [sinceStart?, hplayed]
  cases hsince : sinceStart? history with
  | none =>
    simp only [hsince] at h
    have hsame : t.pause now = t := if_neg fun hboth => by simp [h.1] at hboth
    rw [hsame]
    exact h
  | some place =>
    obtain ⟨start, since⟩ := place
    simp only [hsince] at h
    obtain ⟨length, htracks⟩ := h
    cases hpaused : since.head?.any Act.isPause with
    | true =>
      rw [hpaused] at htracks
      rw [pause_of_isPaused htracks.stands]
      exact ⟨length, htracks⟩
    | false =>
      rw [hpaused] at htracks
      exact ⟨length, htracks.pause⟩

theorem Reflects.resume (h : t.Reflects history now) :
    (t.resume now).Reflects (.resume now :: history) now := by
  have hplayed : played (.resume now :: history) now = played history now := played_cons rfl rfl
  unfold Reflects at h ⊢
  simp only [sinceStart?, hplayed]
  cases hsince : sinceStart? history with
  | none =>
    simp only [hsince] at h
    have hunpaused : t.isPaused = false := by rw [isPaused, h.2, Option.isSome_none]
    rw [resume_of_not_isPaused hunpaused]
    exact h
  | some place =>
    obtain ⟨start, since⟩ := place
    simp only [hsince] at h
    obtain ⟨length, htracks⟩ := h
    cases hpaused : since.head?.any Act.isPause with
    | true =>
      rw [hpaused] at htracks
      exact ⟨length, htracks.resume⟩
    | false =>
      rw [hpaused] at htracks
      rw [resume_of_not_isPaused htracks.stands]
      exact ⟨length, htracks⟩

theorem reflects_after (total : Duration) (hordered : (now :: times history).Pairwise (· ≥ ·)) :
    (after total history).Reflects history now := by
  induction history generalizing now with
  | nil => exact ⟨rfl, rfl⟩
  | cons act history ih =>
    -- What is done at some time finds the timeline as it was then, and now comes later.
    have hthen {time : Nat} (htime : act.time? = some time)
        (hdone : ((after total history).Reflects history time →
          (after total (act :: history)).Reflects (act :: history) time)) :
        (after total (act :: history)).Reflects (act :: history) now := by
      have htimes : times (act :: history) = time :: times history := List.filterMap_cons_some htime
      rw [htimes] at hordered
      obtain ⟨hle, hearlier⟩ := List.pairwise_cons.1 hordered
      refine (hdone (ih hearlier)).wait (fun time' hmem => ?_) (hle time List.mem_cons_self)
      rw [htimes] at hmem
      rcases List.mem_cons.1 hmem with rfl | hmem
      · exact Nat.le_refl _
      · exact (List.pairwise_cons.1 hearlier).1 time' hmem
    cases act with
    | clear => exact ⟨rfl, rfl⟩
    | pause time => exact hthen rfl Reflects.pause
    | resume time => exact hthen rfl Reflects.resume
    | start time =>
      have hnone : played (.start time :: history) time = 0 := by simp [played, sinceStart?]
      refine hthen rfl fun _ => ⟨(after total history).total, ?_⟩
      rw [hnone]
      exact tracks_start (after total history) time
    | restart length time =>
      have hnone : played (.restart length time :: history) time = 0 := by
        simp [played, sinceStart?]
      refine hthen rfl fun _ => ⟨length, ?_⟩
      rw [hnone]
      exact tracks_restart (after total history) length time

theorem Reflects.elapsed (h : t.Reflects history now) (hclock : now ≤ maxNanos) :
    (t.elapsed now).nanos = played history now := by
  unfold Reflects at h
  cases hsince : sinceStart? history with
  | none =>
    simp only [hsince] at h
    simp only [played, hsince]
    rw [Timeline.elapsed, h.1]
    rfl
  | some place =>
    simp only [hsince] at h
    obtain ⟨length, htracks⟩ := h
    exact htracks.shows.elapsed hclock

theorem Reflects.exact (h : t.Reflects history now) (hclock : now ≤ maxNanos) : t.Exact now := by
  unfold Reflects at h
  cases hsince : sinceStart? history with
  | none =>
    simp only [hsince] at h
    exact ⟨fun start hstart => by simp [h.1] at hstart, fun time hpaused => by simp [h.2] at hpaused⟩
  | some place =>
    simp only [hsince] at h
    obtain ⟨length, htracks⟩ := h
    obtain ⟨start, hstart, hsum, hle⟩ := htracks.sum hclock
    refine ⟨fun start' hstart' => ?_, fun time hpaused => ?_⟩
    · obtain rfl : start = start' := Option.some.inj (hstart.symm.trans hstart')
      omega
    · have hreach : t.reach now = time := by
        rw [reach, hpaused]
        rfl
      omega

theorem elapsed_of_isPaused (h : t.isPaused = true) (now now' : Instant) :
    t.elapsed now = t.elapsed now' := by
  obtain ⟨time, hpaused⟩ := Option.isSome_iff_exists.1 h
  rw [elapsed, elapsed, hpaused]
  rfl

theorem foldr_pause_of_isPaused (h : t.isPaused = true)
    (hmore : ∀ act ∈ more, act.isPause = true) : more.foldr Act.on t = t := by
  induction more with
  | nil => rfl
  | cons act more ih =>
    rw [List.foldr_cons, ih fun act' hact' => hmore act' (List.mem_cons_of_mem _ hact')]
    have hpause := hmore act List.mem_cons_self
    cases act with
    | pause now => exact pause_of_isPaused h now
    | _ => cases hpause

theorem min_elapsed_add_remaining (t : Timeline) (now : Instant) :
    min (t.elapsed now).nanos t.total.nanos + (t.remaining now).nanos = t.total.nanos := by
  rw [remaining, Duration.nanos_sub]
  omega

/-- Whatever was done with a timeline, as long as the clock does not go back, it shows the time since
the last start in which no pause went on, and nothing is cut off where that is worked out. So it never
shows less until it is cleared or started anew, it shows the same while it is paused, and what is left
makes up the rest of its length. -/
theorem shows_what_was_played (total : Duration) (hordered : (now :: times history).Pairwise (· ≥ ·))
    (hclock : now ≤ maxNanos) :
    ((after total history).elapsed now).nanos = played history now ∧
      (after total history).Exact now ∧
      (∀ (more : List Act) (now' : Nat), (∀ act ∈ more, act.isStart = false ∧ act ≠ .clear) →
        (now' :: (times more ++ now :: times history)).Pairwise (· ≥ ·) → now' ≤ maxNanos →
        (after total history).elapsed now ≤ (after total (more ++ history)).elapsed now') ∧
      ((after total history).isPaused = true → ∀ (more : List Act) (now' : Nat),
        (∀ act ∈ more, act.isPause = true) →
        (after total (more ++ history)).elapsed now' = (after total history).elapsed now) ∧
      min ((after total history).elapsed now).nanos (after total history).total.nanos +
        ((after total history).remaining now).nanos = (after total history).total.nanos := by
  have hreflects := reflects_after total hordered
  refine ⟨hreflects.elapsed hclock, hreflects.exact hclock, fun more now' hmore hlater hclock' => ?_,
    fun hpaused more now' hmore => ?_, min_elapsed_add_remaining _ now⟩
  · have hnow : ∀ time ∈ times more, now ≤ time := by
      intro time htime
      have hsplit := (List.pairwise_append.1 (List.pairwise_cons.1 hlater).2).2.2
      exact hsplit time htime now List.mem_cons_self
    have hle : now ≤ now' := (List.pairwise_cons.1 hlater).1 now (by simp)
    have hall : (now' :: times (more ++ history)).Pairwise (· ≥ ·) := by
      refine hlater.sublist (List.Sublist.cons_cons now' ?_)
      rw [times, List.filterMap_append]
      exact (List.Sublist.refl _).append (List.sublist_cons_self _ _)
    show ((after total history).elapsed now).nanos ≤ ((after total (more ++ history)).elapsed now').nanos
    rw [hreflects.elapsed hclock, (reflects_after total hall).elapsed hclock', ← played_append hmore hnow]
    exact played_le _ hle
  · rw [after_append, foldr_pause_of_isPaused hpaused hmore]
    exact elapsed_of_isPaused hpaused now' now

/-- A timeline that is resumed before it starts, and paused and resumed twice in a row. -/
def unmatched : List Act :=
  [.pause 9, .resume 7, .resume 6, .pause 4, .pause 3, .start 1, .resume 0]

theorem shows_what_was_played_unmatched :
    (12 :: times unmatched).Pairwise (· ≥ ·) ∧ 12 ≤ maxNanos ∧
      ((after (.ofNanos 8) unmatched).elapsed 12).nanos = 5 ∧
      ((after (.ofNanos 8) unmatched).remaining 12).nanos = 3 ∧
      ((after (.ofNanos 8) (.pause 20 :: unmatched)).elapsed 30).nanos = 5 ∧
      (after (.ofNanos 8) unmatched).elapsed 12 ≤
        (after (.ofNanos 8) (.resume 20 :: unmatched)).elapsed 30 := by
  have hordered : (12 :: times unmatched).Pairwise (· ≥ ·) := by decide
  have hclock : 12 ≤ maxNanos := by decide
  obtain ⟨helapsed, -, hgrows, hstands, hrest⟩ :=
    shows_what_was_played (.ofNanos 8) hordered hclock
  have hfive : played unmatched 12 = 5 := by decide
  have htotal : (after (.ofNanos 8) unmatched).total.nanos = 8 := by decide
  rw [hfive] at helapsed
  rw [helapsed, htotal] at hrest
  refine ⟨hordered, hclock, helapsed, by omega, ?_, ?_⟩
  · have hsame := hstands (by decide) [.pause 20] 30 (by decide)
    rw [← helapsed, ← hsame]
    rfl
  · exact hgrows [.resume 20] 30 (by decide) (by decide) (by decide)

/-- Clearing a timeline between two starts takes away what it shows. -/
theorem shows_less_when_cleared :
    ¬∀ (total : Duration) (history more : List Act) (now now' next : Nat),
      (∀ act ∈ more, act.isStart = false) →
      (next :: now' :: (times more ++ now :: times history)).Pairwise (· ≥ ·) → next ≤ maxNanos →
      (after total history).elapsed now ≤ (after total (more ++ history)).elapsed now' := by
  intro hgrows
  have hless := hgrows (.ofSeconds 10) [.start 0] [.clear] 5000000000 6000000000 7000000000
    (by decide) (by decide) (by decide)
  exact absurd hless (by decide)

end Choreo.Timeline
