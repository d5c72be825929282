import Choreo.Binary64
import Mathlib

/-!
# Rounding to binary values

Rounding keeps the order of numbers and leaves alone what is a binary value already. Below a power of
two it is off by no more than half of the last place there.
-/

namespace Choreo

/-! ## Whole numbers -/

section RoundEven

variable {p q : Rat} {n : Int}

theorem floor_le_roundEven (q : Rat) : q.floor ≤ roundEven q := by
  unfold roundEven
  simp only
  split_ifs <;> omega

theorem roundEven_le_floor_add_one (q : Rat) : roundEven q ≤ q.floor + 1 := by
  unfold roundEven
  simp only
  split_ifs <;> omega

theorem le_roundEven (h : (n : Rat) ≤ q) : n ≤ roundEven q :=
  (Rat.le_floor_iff.2 h).trans (floor_le_roundEven q)

theorem roundEven_of_intCast (n : Int) : roundEven n = n := by
  unfold roundEven
  simp

theorem roundEven_zero : roundEven 0 = 0 := by
  have hzero := roundEven_of_intCast 0
  rwa [Int.cast_zero] at hzero

theorem roundEven_mono (h : p ≤ q) : roundEven p ≤ roundEven q := by
  have hfloor : p.floor ≤ q.floor := Rat.floor_monotone h
  rcases hfloor.lt_or_eq with hlt | heq
  · calc roundEven p ≤ p.floor + 1 := roundEven_le_floor_add_one p
      _ ≤ q.floor := hlt
      _ ≤ roundEven q := floor_le_roundEven q
  · have hrest : p - p.floor ≤ q - q.floor := by
      rw [heq]
      linarith
    unfold roundEven
    simp only
    rw [heq] at hrest ⊢
    split_ifs <;> first | omega | linarith

theorem roundEven_le (h : q ≤ n) : roundEven q ≤ n :=
  (roundEven_mono h).trans (roundEven_of_intCast n).le

theorem abs_roundEven_sub_le (q : Rat) : |(roundEven q : Rat) - q| ≤ 1 / 2 := by
  have hlower := Rat.floor_le q
  have hupper := Rat.lt_floor_add_one q
  unfold roundEven
  simp only
  push_cast at hupper
  rw [abs_le]
  split_ifs <;> constructor <;> push_cast <;> linarith

theorem roundEven_eq_of_abs_sub_lt (h : |q - n| < 1 / 2) : roundEven q = n := by
  have hround := abs_le.1 (abs_roundEven_sub_le q)
  rw [abs_lt] at h
  have hlower : ((n - 1 : Int) : Rat) < roundEven q := by
    push_cast
    linarith
  have hupper : (roundEven q : Rat) < ((n + 1 : Int) : Rat) := by
    push_cast
    linarith
  have hlow := Int.cast_lt.1 hlower
  have hhigh := Int.cast_lt.1 hupper
  omega

end RoundEven

namespace Binary64

variable {p q : Rat} {k : Int}

theorem two_zpow_pos (k : Int) : (0 : Rat) < 2 ^ k := zpow_pos (by norm_num) k

theorem two_zpow_le {j k : Int} (h : j ≤ k) : (2 : Rat) ^ j ≤ 2 ^ k :=
  zpow_le_zpow_right₀ (by norm_num) h

theorem two_zpow_lt_iff {j k : Int} : (2 : Rat) ^ j < 2 ^ k ↔ j < k :=
  zpow_lt_zpow_iff_right₀ (by norm_num)

theorem two_zpow_add (j k : Int) : (2 : Rat) ^ (j + k) = 2 ^ j * 2 ^ k :=
  zpow_add₀ (by norm_num) j k

/-! ## The place of a number -/

/-- A quotient of whole numbers lies between the powers that their lengths give. -/
theorem floorLog_bounds (hq : 0 < q) :
    (2 : Rat) ^ ((Nat.log2 q.num.toNat : Int) - Nat.log2 q.den - 1) < q ∧
      q < 2 ^ ((Nat.log2 q.num.toNat : Int) - Nat.log2 q.den + 1) := by
  have hnum : q.num.toNat ≠ 0 := by
    have hpos := Rat.num_pos.2 hq
    omega
  have hcast : ((q.num.toNat : Nat) : Rat) = (q.num : Rat) := by
    rw [← Int.cast_natCast, Int.toNat_of_nonneg (Rat.num_nonneg.2 hq.le)]
  have hden : (0 : Rat) < q.den := Nat.cast_pos.2 q.den_pos
  have hquotient : q = (q.num.toNat : Rat) / q.den := by
    rw [hcast, Rat.num_div_den]
  have hnumLower : (2 : Rat) ^ (Nat.log2 q.num.toNat : Int) ≤ q.num.toNat := by
    rw [zpow_natCast]
    exact_mod_cast Nat.log2_self_le hnum
  have hnumUpper : (q.num.toNat : Rat) < 2 ^ ((Nat.log2 q.num.toNat : Int) + 1) := by
    rw [← Nat.cast_add_one, zpow_natCast]
    exact_mod_cast Nat.lt_log2_self
  have hdenLower : (2 : Rat) ^ (Nat.log2 q.den : Int) ≤ q.den := by
    rw [zpow_natCast]
    exact_mod_cast Nat.log2_self_le q.den_nz
  have hdenUpper : (q.den : Rat) < 2 ^ ((Nat.log2 q.den : Int) + 1) := by
    rw [← Nat.cast_add_one, zpow_natCast]
    exact_mod_cast Nat.lt_log2_self
  generalize (Nat.log2 q.num.toNat : Int) = a at *
  generalize (Nat.log2 q.den : Int) = b at *
  constructor
  · rw [hquotient, lt_div_iff₀ hden]
    calc (2 : Rat) ^ (a - b - 1) * q.den < 2 ^ (a - b - 1) * 2 ^ (b + 1) :=
          mul_lt_mul_of_pos_left hdenUpper (two_zpow_pos _)
      _ = 2 ^ a := by rw [← two_zpow_add]; congr 1; omega
      _ ≤ q.num.toNat := hnumLower
  · rw [hquotient, div_lt_iff₀ hden]
    calc (q.num.toNat : Rat) < 2 ^ (a + 1) := hnumUpper
      _ = 2 ^ (a - b + 1) * 2 ^ b := by rw [← two_zpow_add]; congr 1; omega
      _ ≤ 2 ^ (a - b + 1) * q.den := mul_le_mul_of_nonneg_left hdenLower (two_zpow_pos _).le

theorem floorLog_spec (hq : 0 < q) :
    (2 : Rat) ^ floorLog q ≤ q ∧ q < 2 ^ (floorLog q + 1) := by
  obtain ⟨hlower, hupper⟩ := floorLog_bounds hq
  unfold floorLog
  simp only
  split_ifs with hguess
  · exact ⟨hguess, hupper⟩
  · rw [Int.sub_add_cancel]
    exact ⟨hlower.le, not_le.1 hguess⟩

theorem floorLog_lt (hq : 0 < q) (hlt : q < 2 ^ k) : floorLog q < k :=
  two_zpow_lt_iff.1 ((floorLog_spec hq).1.trans_lt hlt)

theorem floorLog_mono (hp : 0 < p) (h : p ≤ q) : floorLog p ≤ floorLog q := by
  have hlog := two_zpow_lt_iff.1
    ((floorLog_spec hp).1.trans_lt (h.trans_lt (floorLog_spec (hp.trans_le h)).2))
  omega

/-! ## Rounding -/

theorem nearest_of_pos (hq : 0 < q) :
    nearest q = roundEven (q / (2 : Rat) ^ lastPlace q) * (2 : Rat) ^ lastPlace q :=
  if_neg (not_le.2 hq)

theorem nearest_nonneg (q : Rat) : 0 ≤ nearest q := by
  unfold nearest
  split_ifs with hq
  · exact le_refl 0
  · have hdigits : 0 ≤ roundEven (q / (2 : Rat) ^ lastPlace q) := by
      apply le_roundEven
      rw [Int.cast_zero]
      exact div_nonneg (not_le.1 hq).le (two_zpow_pos _).le
    exact mul_nonneg (Int.cast_nonneg hdigits) (two_zpow_pos _).le

theorem nearest_of_digits (digits : Int) (hq : 0 < q)
    (hdigits : q = digits * (2 : Rat) ^ lastPlace q) : nearest q = q := by
  have hquotient : q / (2 : Rat) ^ lastPlace q = digits := by
    rw [div_eq_iff (two_zpow_pos _).ne']
    exact hdigits
  rw [nearest_of_pos hq, hquotient, roundEven_of_intCast]
  exact hdigits.symm

theorem abs_nearest_sub_le (hq : 0 < q) (hlt : q < 2 ^ k) (hk : -1021 ≤ k) :
    |nearest q - q| ≤ 2 ^ (k - 54) := by
  have hplace : lastPlace q ≤ k - 53 := by
    have hlog := floorLog_lt hq hlt
    unfold lastPlace
    omega
  have hround := abs_roundEven_sub_le (q / (2 : Rat) ^ lastPlace q)
  have hscale : nearest q - q =
      (roundEven (q / (2 : Rat) ^ lastPlace q) - q / (2 : Rat) ^ lastPlace q) *
        (2 : Rat) ^ lastPlace q := by
    rw [nearest_of_pos hq, sub_mul, div_mul_cancel₀ _ (two_zpow_pos _).ne']
  calc |nearest q - q|
      = |(roundEven (q / (2 : Rat) ^ lastPlace q) : Rat) - q / (2 : Rat) ^ lastPlace q| *
          (2 : Rat) ^ lastPlace q := by
        rw [hscale, abs_mul, abs_of_pos (two_zpow_pos _)]
    _ ≤ 1 / 2 * (2 : Rat) ^ lastPlace q :=
        mul_le_mul_of_nonneg_right hround (two_zpow_pos _).le
    _ ≤ 1 / 2 * 2 ^ (k - 53) := by
        apply mul_le_mul_of_nonneg_left (two_zpow_le hplace)
        norm_num
    _ = 2 ^ (k - 54) := by
        have hhalf : (1 / 2 : Rat) = 2 ^ (-1 : Int) := by norm_num
        rw [hhalf, ← two_zpow_add]
        congr 1
        omega

theorem nearest_mono (h : p ≤ q) : nearest p ≤ nearest q := by
  by_cases hp : p ≤ 0
  · rw [nearest, if_pos hp]
    exact nearest_nonneg q
  · have hp : 0 < p := not_le.1 hp
    have hq : 0 < q := hp.trans_le h
    have hlog := floorLog_mono hp h
    rw [nearest_of_pos hp, nearest_of_pos hq]
    by_cases hplace : lastPlace p = lastPlace q
    · rw [hplace]
      apply mul_le_mul_of_nonneg_right _ (two_zpow_pos _).le
      have hquotient := div_le_div_of_nonneg_right h (two_zpow_pos (lastPlace q)).le
      exact_mod_cast roundEven_mono hquotient
    · -- The power of two that the larger number begins with lies between both, and has no digits
      -- beyond either place.
      have hbetween : floorLog p + 1 ≤ floorLog q ∧ lastPlace q = floorLog q - 52 ∧
          lastPlace p ≤ floorLog q := by
        unfold lastPlace at hplace ⊢
        omega
      obtain ⟨hlt, hplaceq, hplacep⟩ := hbetween
      have hpow (place : Int) (hle : place ≤ floorLog q) :
          ((2 ^ (floorLog q - place).toNat : Int) : Rat) * 2 ^ place = 2 ^ floorLog q := by
        push_cast
        rw [← zpow_natCast, Int.toNat_of_nonneg (by omega), ← two_zpow_add]
        congr 1
        omega
      calc (roundEven (p / (2 : Rat) ^ lastPlace p) : Rat) * 2 ^ lastPlace p
          ≤ ((2 ^ (floorLog q - lastPlace p).toNat : Int) : Rat) * 2 ^ lastPlace p := by
            apply mul_le_mul_of_nonneg_right _ (two_zpow_pos _).le
            have hle : p / (2 : Rat) ^ lastPlace p ≤
                ((2 ^ (floorLog q - lastPlace p).toNat : Int) : Rat) := by
              rw [div_le_iff₀ (two_zpow_pos _), hpow _ hplacep]
              exact (floorLog_spec hp).2.le.trans (two_zpow_le hlt)
            exact_mod_cast roundEven_le hle
        _ = 2 ^ floorLog q := hpow _ hplacep
        _ = ((2 ^ (floorLog q - lastPlace q).toNat : Int) : Rat) * 2 ^ lastPlace q :=
            (hpow _ (by omega)).symm
        _ ≤ roundEven (q / (2 : Rat) ^ lastPlace q) * 2 ^ lastPlace q := by
            apply mul_le_mul_of_nonneg_right _ (two_zpow_pos _).le
            have hle : ((2 ^ (floorLog q - lastPlace q).toNat : Int) : Rat) ≤
                q / (2 : Rat) ^ lastPlace q := by
              rw [le_div_iff₀ (two_zpow_pos _), hpow _ (by omega)]
              exact (floorLog_spec hq).1
            exact_mod_cast le_roundEven hle

/-! ## Binary values -/

theorem floorLog_eq (hlower : (2 : Rat) ^ k ≤ q) (hupper : q < 2 ^ (k + 1)) : floorLog q = k := by
  have hq : 0 < q := (two_zpow_pos k).trans_le hlower
  have hle := floorLog_lt hq hupper
  have hge := two_zpow_lt_iff.1 (hlower.trans_lt (floorLog_spec hq).2)
  omega

theorem floorLog_two_zpow (k : Int) : floorLog ((2 : Rat) ^ k) = k :=
  floorLog_eq le_rfl (two_zpow_lt_iff.2 (Int.lt_succ k))

theorem two_zpow_eq_digits {place : Int} (h : place ≤ k) :
    (2 : Rat) ^ k = ((2 ^ (k - place).toNat : Int) : Rat) * 2 ^ place := by
  push_cast
  rw [← zpow_natCast, Int.toNat_of_nonneg (by omega), ← two_zpow_add]
  congr 1
  omega

theorem nearest_two_zpow (hk : -1022 ≤ k) : nearest ((2 : Rat) ^ k) = 2 ^ k := by
  have hplace : lastPlace ((2 : Rat) ^ k) ≤ k := by
    unfold lastPlace
    rw [floorLog_two_zpow]
    omega
  exact nearest_of_digits _ (two_zpow_pos k) (two_zpow_eq_digits hplace)

theorem nearest_zero : nearest 0 = 0 := if_pos le_rfl

theorem nearest_one : nearest 1 = 1 := by
  have h := @nearest_two_zpow 0 (by omega)
  rwa [zpow_zero] at h

theorem nearest_natCast {n : Nat} (hn : n ≤ 2 ^ 53) : nearest n = n := by
  rcases Nat.eq_zero_or_pos n with rfl | hpos
  · exact nearest_zero
  · rcases hn.lt_or_eq with hlt | rfl
    · have hpos' : (0 : Rat) < n := Nat.cast_pos.2 hpos
      have hlog : floorLog (n : Rat) < 53 := by
        apply floorLog_lt hpos'
        exact_mod_cast hlt
      have hplace : lastPlace (n : Rat) ≤ 0 := by
        unfold lastPlace
        omega
      have hone := two_zpow_eq_digits hplace
      apply nearest_of_digits (n * 2 ^ (0 - lastPlace (n : Rat)).toNat) hpos'
      rw [Int.cast_mul, mul_assoc, ← hone, zpow_zero, mul_one, Int.cast_natCast]
    · have h := @nearest_two_zpow 53 (by omega)
      exact_mod_cast h

theorem exists_digits (hq : 1 ≤ q) :
    ∃ digits : Int, nearest q = digits * (2 : Rat) ^ lastPlace (nearest q) := by
  have hpos : 0 < q := zero_lt_one.trans_le hq
  obtain ⟨hlower, hupper⟩ := floorLog_spec hpos
  have hlog : 0 ≤ floorLog q := by
    have hone : (2 : Rat) ^ (0 : Int) < 2 ^ (floorLog q + 1) := by
      rw [zpow_zero]
      exact hq.trans_lt hupper
    have hlog := two_zpow_lt_iff.1 hone
    omega
  have hge : (2 : Rat) ^ floorLog q ≤ nearest q := by
    rw [← nearest_two_zpow (k := floorLog q) (by omega)]
    exact nearest_mono hlower
  have hle : nearest q ≤ 2 ^ (floorLog q + 1) := by
    rw [← nearest_two_zpow (k := floorLog q + 1) (by omega)]
    exact nearest_mono hupper.le
  rcases hle.lt_or_eq with hlt | heq
  · have hplace : lastPlace (nearest q) = lastPlace q := by
      unfold lastPlace
      rw [floorLog_eq hge hlt]
    exact ⟨_, by rw [hplace]; exact nearest_of_pos hpos⟩
  · have hplace : lastPlace (nearest q) ≤ floorLog q + 1 := by
      rw [heq]
      unfold lastPlace
      rw [floorLog_two_zpow]
      omega
    exact ⟨_, heq.trans (two_zpow_eq_digits hplace)⟩

theorem roundEven_add {rest : Rat} (n : Int) (hlower : 0 ≤ rest) (hupper : rest < 1 / 2) :
    roundEven (n + rest) = n := by
  have hfloor : Rat.floor ((n : Rat) + rest) = n := by
    apply le_antisymm
    · have hlt : Rat.floor ((n : Rat) + rest) < n + 1 := by
        apply Rat.floor_lt_iff.2
        push_cast
        linarith
      omega
    · apply Rat.le_floor_iff.2
      linarith
  unfold roundEven
  simp only
  rw [hfloor, if_pos (by linarith)]

/-- From `2 ^ 53` on a part of one is lost. -/
theorem nearest_add_part {part : Rat} (hq : 2 ^ 53 ≤ q)
    (hdigits : ∃ digits : Int, q = digits * (2 : Rat) ^ lastPlace q) (hlower : 0 ≤ part)
    (hupper : part < 1) : nearest (q + part) = q := by
  obtain ⟨digits, hdigits⟩ := hdigits
  have hpos : 0 < q := lt_of_lt_of_le (by norm_num) hq
  obtain ⟨hlow, hhigh⟩ := floorLog_spec hpos
  have hlog : 53 ≤ floorLog q := by
    have hpow : (2 : Rat) ^ (53 : Int) < 2 ^ (floorLog q + 1) := by
      refine lt_of_le_of_lt ?_ hhigh
      exact_mod_cast hq
    have hlog := two_zpow_lt_iff.1 hpow
    omega
  have hplace : lastPlace q = floorLog q - 52 := by
    unfold lastPlace
    omega
  have htwo : (2 : Rat) ≤ 2 ^ lastPlace q := by
    calc (2 : Rat) = 2 ^ (1 : Int) := (zpow_one 2).symm
      _ ≤ 2 ^ lastPlace q := two_zpow_le (by omega)
  -- There is room for a whole place below the next power of two.
  have hroom : q + 2 ^ lastPlace q ≤ 2 ^ (floorLog q + 1) := by
    have hle : lastPlace q ≤ floorLog q + 1 := by omega
    have hpow := two_zpow_eq_digits hle
    generalize (2 ^ (floorLog q + 1 - lastPlace q).toNat : Int) = next at hpow
    have hlt : (digits : Rat) * 2 ^ lastPlace q < next * 2 ^ lastPlace q :=
      lt_of_eq_of_lt hdigits.symm (hhigh.trans_eq hpow)
    have hle : digits + 1 ≤ next :=
      Int.cast_lt.1 (lt_of_mul_lt_mul_right hlt (two_zpow_pos (lastPlace q)).le)
    calc q + 2 ^ lastPlace q = digits * 2 ^ lastPlace q + 2 ^ lastPlace q :=
          congrArg (· + (2 : Rat) ^ lastPlace q) hdigits
      _ = ((digits + 1 : Int) : Rat) * 2 ^ lastPlace q := by push_cast; ring
      _ ≤ next * 2 ^ lastPlace q :=
          mul_le_mul_of_nonneg_right (Int.cast_le.2 hle) (two_zpow_pos _).le
      _ = 2 ^ (floorLog q + 1) := hpow.symm
  have hsame : lastPlace (q + part) = lastPlace q := by
    unfold lastPlace
    rw [floorLog_eq (hlow.trans (by linarith)) (by linarith)]
  have hround : (q + part) / (2 : Rat) ^ lastPlace q = digits + part / 2 ^ lastPlace q := by
    rw [add_div]
    congr 1
    rw [div_eq_iff (two_zpow_pos _).ne']
    exact hdigits
  rw [nearest_of_pos (by linarith), hsame, hround, roundEven_add digits]
  · exact hdigits.symm
  · exact div_nonneg hlower (two_zpow_pos _).le
  · rw [div_lt_iff₀ (two_zpow_pos _)]
    linarith

theorem nearest_below_one : nearest (1 - 1 / 2 ^ 53) = 1 - 1 / 2 ^ 53 := by
  have hlog : floorLog (1 - 1 / 2 ^ 53) = -1 := floorLog_eq (by norm_num) (by norm_num)
  have hplace : lastPlace (1 - 1 / 2 ^ 53) = -53 := by
    unfold lastPlace
    rw [hlog]
    rfl
  apply nearest_of_digits (2 ^ 53 - 1) (by norm_num)
  rw [hplace]
  norm_num

theorem nearest_lt_one {q : Rat} (hq : q ≤ 1 - 1 / 2 ^ 53) : nearest q < 1 := by
  calc nearest q ≤ nearest (1 - 1 / 2 ^ 53) := nearest_mono hq
    _ = 1 - 1 / 2 ^ 53 := nearest_below_one
    _ < 1 := by norm_num

end Binary64

end Choreo
