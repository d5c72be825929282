import Choreo.Proofs.Binary64
import Choreo.Timeline

/-!
# Durations as binary seconds

What a timeline shows as its progress is a quotient of two numbers of seconds, each of which was rounded
twice. The whole is shown when all was played. It is not shown before that, unless the timeline is so
long that the rounding covers what is left.
-/

namespace Choreo

namespace Duration

open Binary64

variable {d e : Duration}

theorem nanos_eq (d : Duration) : d.nanos = d.seconds * 1000000000 + d.subsecond :=
  (Nat.div_add_mod' d.nanos 1000000000).symm

theorem subsecond_lt (d : Duration) : d.subsecond < 1000000000 := Nat.mod_lt _ (by omega)

def binaryPart (d : Duration) : Rat := Binary64.div d.subsecond 1000000000

theorem binarySeconds_eq (d : Duration) :
    d.binarySeconds = nearest (nearest d.seconds + d.binaryPart) := rfl

theorem part_le (d : Duration) : (d.subsecond : Rat) / 1000000000 ≤ 999999999 / 1000000000 := by
  have hle : (d.subsecond : Rat) ≤ 999999999 := by
    have hlt := d.subsecond_lt
    exact_mod_cast (by omega : d.subsecond ≤ 999999999)
  exact div_le_div_of_nonneg_right hle (by norm_num)

theorem binaryPart_nonneg (d : Duration) : 0 ≤ d.binaryPart := nearest_nonneg _

theorem binaryPart_lt_one (d : Duration) : d.binaryPart < 1 :=
  nearest_lt_one (d.part_le.trans (by norm_num))

/-- Where the seconds are too many, the part of one is lost. -/
theorem nearest_add_binaryPart (h : 2 ^ 53 ≤ d.seconds) :
    nearest (nearest d.seconds + d.binaryPart) = nearest d.seconds := by
  have hbig : (2 : Rat) ^ 53 ≤ nearest (d.seconds : Rat) := by
    calc (2 : Rat) ^ 53 = ((2 ^ 53 : Nat) : Rat) := by norm_num
      _ = nearest ((2 ^ 53 : Nat) : Rat) := (nearest_natCast le_rfl).symm
      _ ≤ nearest d.seconds := nearest_mono (Nat.cast_le.2 h)
  have hone : (1 : Rat) ≤ d.seconds := by exact_mod_cast (by omega : 1 ≤ d.seconds)
  exact nearest_add_part hbig (exists_digits hone) d.binaryPart_nonneg d.binaryPart_lt_one

theorem binarySeconds_mono (h : d.nanos ≤ e.nanos) : d.binarySeconds ≤ e.binarySeconds := by
  have hseconds : d.seconds ≤ e.seconds := Nat.div_le_div_right h
  have hpart := d.binaryPart_lt_one
  have hpart' := e.binaryPart_nonneg
  rcases hseconds.lt_or_eq with hlt | heq
  · have hcast : (d.seconds : Rat) + 1 ≤ e.seconds := by exact_mod_cast hlt
    have hwhole : nearest (d.seconds : Rat) ≤ nearest (e.seconds : Rat) :=
      nearest_mono (by linarith)
    rw [binarySeconds_eq, binarySeconds_eq]
    by_cases hsmall : e.seconds ≤ 2 ^ 53
    · rw [nearest_natCast hsmall, nearest_natCast (hseconds.trans hsmall)]
      apply nearest_mono
      linarith
    · have hsmall : 2 ^ 53 ≤ e.seconds := (not_le.1 hsmall).le
      have hkept := nearest_add_binaryPart hsmall
      rw [hkept]
      by_cases hsmall' : d.seconds < 2 ^ 53
      · rw [nearest_natCast hsmall'.le]
        calc nearest ((d.seconds : Rat) + d.binaryPart) ≤ nearest ((2 ^ 53 : Nat) : Rat) := by
              apply nearest_mono
              have hbelow : (d.seconds : Rat) + 1 ≤ (2 ^ 53 : Nat) := by exact_mod_cast hsmall'
              linarith
          _ ≤ nearest e.seconds := nearest_mono (Nat.cast_le.2 hsmall)
      · rw [nearest_add_binaryPart (not_lt.1 hsmall')]
        exact hwhole
  · have hsub : d.subsecond ≤ e.subsecond := by
      rw [d.nanos_eq, e.nanos_eq, heq] at h
      omega
    rw [binarySeconds_eq, binarySeconds_eq, heq]
    apply nearest_mono
    have hround : d.binaryPart ≤ e.binaryPart := by
      apply nearest_mono
      exact div_le_div_of_nonneg_right (Nat.cast_le.2 hsub) (by norm_num)
    linarith

/-- Of less than a power of two in seconds, no more than the last place there is lost. -/
theorem abs_binarySeconds_sub_le_zpow {k : Nat} (hk : k ≤ 53) (h : d.seconds < 2 ^ k) :
    |d.binarySeconds - d.nanos / 1000000000| ≤ 2 ^ ((k : Int) - 53) := by
  have hwhole := nearest_natCast (h.le.trans (Nat.pow_le_pow_right (by norm_num) hk))
  have hsplit : (d.nanos : Rat) / 1000000000 = d.seconds + d.subsecond / 1000000000 := by
    rw [d.nanos_eq]
    push_cast
    ring
  have hpart : |d.binaryPart - d.subsecond / 1000000000| ≤ 2 ^ ((k : Int) - 54) := by
    rcases Nat.eq_zero_or_pos d.subsecond with hzero | hpos
    · have hnone : d.binaryPart = 0 := by
        unfold binaryPart Binary64.div
        rw [hzero, Nat.cast_zero, zero_div, nearest_zero]
      rw [hnone, hzero, Nat.cast_zero, zero_div, sub_zero, abs_zero]
      exact (two_zpow_pos _).le
    · have hlt : (d.subsecond : Rat) / 1000000000 < 2 ^ (0 : Int) := by
        rw [zpow_zero]
        exact d.part_le.trans_lt (by norm_num)
      have hround := abs_nearest_sub_le (div_pos (Nat.cast_pos.2 hpos) (by norm_num)) hlt (by omega)
      exact hround.trans (two_zpow_le (by omega))
  have hsum : |d.binarySeconds - (d.seconds + d.binaryPart)| ≤ 2 ^ ((k : Int) - 54) := by
    have hlower := d.binaryPart_nonneg
    rw [binarySeconds_eq, hwhole]
    rcases (add_nonneg (Nat.cast_nonneg d.seconds) hlower).eq_or_lt with hzero | hpos
    · rw [← hzero, nearest_zero, sub_zero, abs_zero]
      exact (two_zpow_pos _).le
    · have hlt : (d.seconds : Rat) + d.binaryPart < 2 ^ (k : Int) := by
        have hupper := d.binaryPart_lt_one
        have hnext : (d.seconds : Rat) + 1 ≤ 2 ^ k := by exact_mod_cast h
        rw [zpow_natCast]
        linarith
      exact abs_nearest_sub_le hpos hlt (by omega)
  calc |d.binarySeconds - d.nanos / 1000000000|
      = |(d.binarySeconds - (d.seconds + d.binaryPart)) +
          (d.binaryPart - d.subsecond / 1000000000)| := by rw [hsplit]; congr 1; ring
    _ ≤ 2 ^ ((k : Int) - 54) + 2 ^ ((k : Int) - 54) := (abs_add_le _ _).trans (add_le_add hsum hpart)
    _ = 2 ^ ((k : Int) - 53) := by
        have hplace : (k : Int) - 53 = (k - 54) + 1 := by omega
        rw [hplace, two_zpow_add, zpow_one]
        ring

/-- Up to a million seconds, less than a nanosecond is lost. -/
theorem abs_binarySeconds_sub_le (h : d.seconds ≤ 1000000) :
    |d.binarySeconds - d.nanos / 1000000000| ≤ 1 / 2 ^ 33 := by
  have hlt : d.seconds < 2 ^ 20 := h.trans_lt (by norm_num)
  calc |d.binarySeconds - d.nanos / 1000000000| ≤ 2 ^ (((20 : Nat) : Int) - 53) :=
        abs_binarySeconds_sub_le_zpow (by norm_num) hlt
    _ = 1 / 2 ^ 33 := by norm_num

theorem binarySeconds_pos (h : 0 < d.nanos) : 0 < d.binarySeconds := by
  have herror := (abs_le.1 (abs_binarySeconds_sub_le (d := .ofNanos 1) (by decide))).1
  have hnanos : ((ofNanos 1).nanos : Rat) = 1 := by norm_num [maxNanos]
  rw [hnanos] at herror
  norm_num at herror
  have hmono : (ofNanos 1).binarySeconds ≤ d.binarySeconds := by
    apply binarySeconds_mono
    rw [nanos_ofNanos]
    omega
  linarith

end Duration

namespace Timeline

open Binary64

variable {t : Timeline} {now : Instant}

/-- A timeline that was played to its end shows that all of it was played. -/
theorem progress_eq_one (hstarted : t.isStarted = true)
    (hend : t.total.nanos ≤ (t.elapsed now).nanos) : t.progress now = 1 := by
  unfold progress
  rw [hstarted]
  simp only [Bool.not_true, Bool.false_eq_true, if_false]
  split_ifs with hzero hpart
  · rfl
  · have htotal : 0 < t.total.nanos := by
      rw [Nat.pos_iff_ne_zero]
      exact fun hnone => hzero (Duration.ext hnone)
    have hone : 1 ≤ (t.elapsed now).binarySeconds / t.total.binarySeconds := by
      rw [one_le_div (Duration.binarySeconds_pos htotal)]
      exact Duration.binarySeconds_mono hend
    apply le_antisymm hpart
    calc (1 : Rat) = nearest 1 := nearest_one.symm
      _ ≤ Binary64.div (t.elapsed now).binarySeconds t.total.binarySeconds := nearest_mono hone
  · rfl

/-- Up to a million seconds, nothing less than the whole length is shown as the whole. -/
theorem progress_lt_one (htotal : t.total.nanos ≤ 1000000000000000)
    (hbefore : (t.elapsed now).nanos < t.total.nanos) : t.progress now < 1 := by
  have hpos : 0 < t.total.binarySeconds := Duration.binarySeconds_pos (by omega)
  have hseconds : t.total.seconds ≤ 1000000 := Nat.div_le_of_le_mul htotal
  have hseconds' : (t.elapsed now).seconds ≤ 1000000 :=
    Nat.div_le_of_le_mul (hbefore.le.trans htotal)
  have hupper := (abs_le.1 (Duration.abs_binarySeconds_sub_le hseconds)).1
  have hbound := (abs_le.1 (Duration.abs_binarySeconds_sub_le hseconds)).2
  have hlower := (abs_le.1 (Duration.abs_binarySeconds_sub_le hseconds')).2
  have hgap : ((t.elapsed now).nanos : Rat) + 1 ≤ t.total.nanos := by exact_mod_cast hbefore
  have hcast : (t.total.nanos : Rat) ≤ 1000000000000000 := by exact_mod_cast htotal
  have hpart : (t.elapsed now).binarySeconds / t.total.binarySeconds ≤ 1 - 1 / 2 ^ 53 := by
    rw [div_le_iff₀ hpos]
    norm_num at hupper hbound hlower ⊢
    linarith
  have hnotZero : t.total ≠ .zero := by
    intro hzero
    rw [hzero] at hbefore
    exact Nat.not_lt_zero _ hbefore
  have hlt : Binary64.div (t.elapsed now).binarySeconds t.total.binarySeconds < 1 :=
    nearest_lt_one hpart
  unfold progress
  simp only
  rw [if_neg hnotZero, if_pos hlt.le]
  split_ifs
  · exact zero_lt_one
  · exact hlt

end Timeline

end Choreo
