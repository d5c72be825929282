import Choreo.Timeline

/-!
# What a timeline shows

A timeline keeps instants and the time of its pauses, not how much of it was played. `Timeline.Tracks`
ties these to what was played since it was started: pausing, resuming and the passing of time keep it,
and restarting begins it anew.
-/

namespace Choreo

theorem Duration.nanos_between (earlier later : Nat) :
    (between earlier later).nanos = min (later - earlier) maxNanos := rfl

namespace Timeline

variable {t : Timeline} {total : Duration} {paused : Bool} {now now' played : Nat}

def reach (t : Timeline) (now : Nat) : Nat := t.pausedAt.getD now

/-- What a timeline shows that was played for some nanoseconds. -/
structure Shows (t : Timeline) (total : Duration) (paused : Bool) (now played : Nat) : Prop where
  total_eq : t.total = total
  started : t.isStarted = true
  stands : t.isPaused = paused
  elapsed : now ≤ maxNanos → (t.elapsed now).nanos = played

/-- A timeline was started, and was played for some nanoseconds up to now. -/
structure Tracks (t : Timeline) (total : Duration) (paused : Bool) (now played : Nat) : Prop where
  total_eq : t.total = total
  started : t.isStarted = true
  stands : t.isPaused = paused
  -- The time of the pauses is a duration, which stops growing at its longest.
  sum : now ≤ maxNanos → ∃ start : Nat, t.startedAt = some start ∧
    start + t.pausedFor.nanos + played = t.reach now ∧ t.reach now ≤ now

theorem Tracks.shows (h : t.Tracks total paused now played) : t.Shows total paused now played := by
  refine ⟨h.total_eq, h.started, h.stands, fun hnow => ?_⟩
  obtain ⟨start, hstart, hsum, hle⟩ := h.sum hnow
  have helapsed : t.elapsed now = Duration.between start (t.reach now) - t.pausedFor := by
    unfold Timeline.elapsed
    rw [hstart]
    rfl
  rw [helapsed, Duration.nanos_sub, Duration.nanos_between]
  omega

theorem tracks_start (t : Timeline) (now : Nat) :
    (t.start now).Tracks t.total false now 0 where
  total_eq := rfl
  started := rfl
  stands := rfl
  sum := fun _ => ⟨now, rfl, rfl, Nat.le_refl now⟩

theorem tracks_restart (t : Timeline) (total : Duration) (now : Nat) :
    (t.restart total now).Tracks total false now 0 :=
  tracks_start { t with total } now

theorem Tracks.pause (h : t.Tracks total false now played) :
    (t.pause now).Tracks total true now played := by
  have hrunning : t.pausedAt = none := by
    have hstands := h.stands
    unfold isPaused at hstands
    rwa [Option.isSome_eq_false_iff, Option.isNone_iff_eq_none] at hstands
  have hpause : t.pause now = { t with pausedAt := some now } := by
    unfold Timeline.pause
    rw [hrunning]
    exact if_pos ⟨h.started, rfl⟩
  rw [hpause]
  refine ⟨h.total_eq, h.started, rfl, fun hnow => ?_⟩
  obtain ⟨start, hstart, hsum, -⟩ := h.sum hnow
  have hreach : t.reach now = now := by
    unfold reach
    rw [hrunning]
    rfl
  exact ⟨start, hstart, hsum.trans hreach, Nat.le_refl now⟩

theorem Tracks.resume (h : t.Tracks total true now played) :
    (t.resume now).Tracks total false now played := by
  obtain ⟨pausedAt, hpaused⟩ := Option.isSome_iff_exists.1 h.stands
  have hresume : t.resume now =
      { t with
        pausedAt := none
        pausedFor := t.pausedFor + Duration.between pausedAt now } := by
    unfold Timeline.resume
    rw [hpaused]
  have hreach : t.reach now = pausedAt := by
    unfold reach
    rw [hpaused]
    rfl
  rw [hresume]
  refine ⟨h.total_eq, h.started, rfl, fun hnow => ?_⟩
  obtain ⟨start, hstart, hsum, hle⟩ := h.sum hnow
  rw [hreach] at hsum hle
  refine ⟨start, hstart, ?_, Nat.le_refl now⟩
  show start + (t.pausedFor + Duration.between pausedAt now).nanos + played = now
  have hover : start + t.pausedFor.nanos + played + (now - pausedAt) = now := by
    rw [hsum]
    exact Nat.add_sub_of_le hle
  have hadded : (t.pausedFor + Duration.between pausedAt now).nanos =
      t.pausedFor.nanos + (now - pausedAt) := by
    have hpause : (Duration.between pausedAt now).nanos = now - pausedAt :=
      Nat.min_eq_left (Nat.le_trans (Nat.sub_le now pausedAt) hnow)
    rw [Duration.nanos_add, hpause]
    exact Nat.min_eq_left (by omega)
  omega

/-- Only what passes outside of pauses counts as played. -/
theorem Tracks.wait (h : t.Tracks total paused now played) (hle : now ≤ now') :
    t.Tracks total paused now' (played + if paused then 0 else now' - now) := by
  refine ⟨h.total_eq, h.started, h.stands, fun hnow => ?_⟩
  obtain ⟨start, hstart, hsum, hbound⟩ := h.sum (Nat.le_trans hle hnow)
  refine ⟨start, hstart, ?_⟩
  have hstands := h.stands
  unfold isPaused at hstands
  unfold reach at hsum hbound ⊢
  cases hpaused : t.pausedAt with
  | none =>
    rw [hpaused, Option.isSome_none] at hstands
    rw [hpaused, Option.getD_none] at hsum
    rw [← hstands, Option.getD_none]
    exact ⟨by rw [if_neg Bool.false_ne_true]; omega, Nat.le_refl now'⟩
  | some pausedAt =>
    rw [hpaused, Option.isSome_some] at hstands
    rw [hpaused, Option.getD_some] at hsum hbound
    rw [← hstands, Option.getD_some]
    exact ⟨by rw [if_pos rfl]; exact hsum, Nat.le_trans hbound hle⟩

end Timeline

end Choreo
