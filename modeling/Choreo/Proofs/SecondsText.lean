import Choreo.Proofs.Decimal
import Choreo.Proofs.Seconds
import Choreo.Proofs.Text

/-!
# Seconds as text

A duration is printed in thousandths of a second, and the text is read as a binary number and rounded
to a nanosecond. Below `2 ^ 22` seconds all roundings together lose less than a nanosecond, so what is
read is the number of thousandths that was printed, and that is nearest to the duration.
-/

namespace Choreo

/-! ## Digits -/

namespace Decimal

variable {whole fraction : List Char}

theorem takeWhile_isDigit_append (hwhole : ∀ c ∈ whole, c.isDigit = true) (rest : List Char) :
    (whole ++ '.' :: rest).takeWhile Char.isDigit = whole ∧
      (whole ++ '.' :: rest).dropWhile Char.isDigit = '.' :: rest := by
  rw [List.takeWhile_append_of_pos hwhole, List.dropWhile_append_of_pos hwhole]
  have hpoint : Char.isDigit '.' = false := by decide
  simp [hpoint]

/-- Digits with some more behind a point are read as one number. -/
theorem read?_digits (hwhole : ∀ c ∈ whole, c.isDigit = true) (hne : whole ≠ [])
    (hfraction : ∀ c ∈ fraction, c.isDigit = true) :
    read? (whole ++ if fraction = [] then [] else '.' :: fraction) =
      some ⟨ofDigits (whole ++ fraction), -fraction.length⟩ := by
  unfold read?
  by_cases hnone : fraction = []
  · have htake : whole.takeWhile Char.isDigit = whole := List.takeWhile_eq_self_iff.2 hwhole
    have hdrop : whole.dropWhile Char.isDigit = [] := List.dropWhile_eq_nil_iff.2 hwhole
    simp [hnone, htake, hdrop, hne]
  · obtain ⟨htake, hdrop⟩ := takeWhile_isDigit_append hwhole fraction
    have htake' : fraction.takeWhile Char.isDigit = fraction :=
      List.takeWhile_eq_self_iff.2 hfraction
    have hdrop' : fraction.dropWhile Char.isDigit = [] := List.dropWhile_eq_nil_iff.2 hfraction
    simp [hnone, htake, hdrop, hne, htake', hdrop']

end Decimal

theorem toLower_of_isDigit {c : Char} (hc : c.isDigit = true) : c.toLower = c := by
  have hbounds := Text.toNat_of_isDigit hc
  have hupper : ('A' : Char).val.toNat = 65 := rfl
  have hnat : c.toNat = c.val.toNat := rfl
  unfold Char.toLower
  rw [dif_neg]
  rintro ⟨hle, -⟩
  rw [ge_iff_le, UInt32.le_iff_toNat_le] at hle
  omega

/-- What begins with a digit is neither signed nor one of the names. -/
theorem Number.read?_of_isDigit {c : Char} {cs : List Char} (hc : c.isDigit = true) :
    Number.read? (c :: cs) = (Decimal.read? (c :: cs)).map (.finite false) := by
  have hminus : c ≠ '-' := by
    rintro rfl
    cases hc
  have hplus : c ≠ '+' := by
    rintro rfl
    cases hc
  have hname {name : List Char} (hname : name.head? ≠ some c) :
      (c :: cs).map Char.toLower ≠ name := by
    rintro rfl
    rw [List.map_cons, toLower_of_isDigit hc] at hname
    exact hname rfl
  have hinf : ¬((c :: cs).map Char.toLower = "inf".toList ∨
      (c :: cs).map Char.toLower = "infinity".toList) := by
    have hi : some 'i' ≠ some c := by
      rintro ⟨⟩
      cases hc
    exact not_or.2 ⟨hname hi, hname hi⟩
  have hnan : ¬(c :: cs).map Char.toLower = "nan".toList := by
    apply hname
    rintro ⟨⟩
    cases hc
  unfold Number.read?
  split
  next heq =>
    split at heq
    · next rest hcs => exact absurd (List.cons.inj hcs).1 hminus
    · next rest hcs => exact absurd (List.cons.inj hcs).1 hplus
    · cases heq
      simp only
      rw [if_neg hinf, if_neg hnan]

namespace Duration

open Binary64

variable {d : Duration}

def thousandths (d : Duration) : Nat := (roundEven (d.binarySeconds * 1000)).toNat

def decimals (n : Nat) : List Char := (padded 3 (n % 1000)).toList.rdropWhile (· = '0')

theorem toList_secondsText (d : Duration) :
    d.secondsText.toList = Nat.toDigits 10 (d.thousandths / 1000) ++
      if decimals d.thousandths = [] then [] else '.' :: decimals d.thousandths := by
  unfold secondsText decimals List.rdropWhile thousandths
  simp only [List.reverse_eq_nil_iff]
  split
  · rw [List.append_nil, Decimal.toList_repr]
  · rw [String.toList_append, String.toList_append, Decimal.toList_repr, String.toList_ofList,
      List.append_assoc, String.toList_ofList, List.singleton_append]

theorem toList_padded (n : Nat) :
    (padded 3 n).toList =
      List.replicate (3 - (Nat.toDigits 10 n).length) '0' ++ Nat.toDigits 10 n := by
  have hlength : (Nat.repr n).length = (Nat.toDigits 10 n).length := by
    rw [← String.length_toList, Decimal.toList_repr]
  simp only [padded]
  rw [String.toList_append, String.toList_ofList, Decimal.toList_repr, hlength]

/-- The decimals are worth the thousandths beyond the whole seconds. -/
theorem decimals_spec (n : Nat) :
    (∀ c ∈ decimals n, c.isDigit = true) ∧
      ∃ zeros, (decimals n).length + zeros = 3 ∧
        10 ^ zeros * Decimal.ofDigits (decimals n) = n % 1000 := by
  have hdigits : ∀ c ∈ (padded 3 (n % 1000)).toList, c.isDigit = true := by
    intro c hc
    rw [toList_padded] at hc
    rcases List.mem_append.1 hc with hzero | hdigit
    · rw [List.eq_of_mem_replicate hzero]
      rfl
    · exact Decimal.isDigit_of_mem_toDigits hdigit
  have hlength : (padded 3 (n % 1000)).toList.length = 3 := by
    have hle := Nat.toDigits_length 10 (n % 1000) 3 (by omega) (Nat.mod_lt _ (by norm_num))
    rw [toList_padded, List.length_append, List.length_replicate]
    omega
  have hvalue : Decimal.ofDigits (padded 3 (n % 1000)).toList = n % 1000 := by
    rw [toList_padded, Decimal.ofDigits_append, Decimal.ofDigits_replicate_zero,
      Decimal.ofDigits_toDigits, Nat.mul_zero, Nat.zero_add]
  unfold decimals
  generalize (padded 3 (n % 1000)).toList = cs at hdigits hlength hvalue ⊢
  have hsplit : cs.rdropWhile (· = '0') ++ cs.rtakeWhile (· = '0') = cs :=
    List.rdropWhile_append_rtakeWhile
  have hzeros : cs.rtakeWhile (· = '0') =
      List.replicate (cs.rtakeWhile (· = '0')).length '0' :=
    List.eq_replicate_of_mem fun c hc => by simpa using List.mem_rtakeWhile_imp hc
  refine ⟨fun c hc => hdigits c ((List.rdropWhile_prefix _ _).subset hc),
    (cs.rtakeWhile (· = '0')).length, ?_, ?_⟩
  · rw [← List.length_append, hsplit, hlength]
  · have happend := Decimal.ofDigits_append (cs.rdropWhile (· = '0')) (cs.rtakeWhile (· = '0'))
    have hnone : Decimal.ofDigits (cs.rtakeWhile (· = '0')) = 0 := by
      rw [hzeros, Decimal.ofDigits_replicate_zero]
    rw [hsplit, hvalue, hnone, Nat.add_zero] at happend
    exact happend.symm

theorem exists_read?_secondsText (d : Duration) :
    ∃ digits places : Nat, places ≤ 3 ∧ digits * 10 ^ (3 - places) = d.thousandths ∧
      Number.read? d.secondsText.toList = some (.finite false ⟨digits, -places⟩) := by
  obtain ⟨hfraction, zeros, hlength, hvalue⟩ := decimals_spec d.thousandths
  have hwhole : ∀ c ∈ Nat.toDigits 10 (d.thousandths / 1000), c.isDigit = true :=
    fun c hc => Decimal.isDigit_of_mem_toDigits hc
  have hread := Decimal.read?_digits hwhole Nat.toDigits_ne_nil hfraction
  refine ⟨Decimal.ofDigits (Nat.toDigits 10 (d.thousandths / 1000) ++ decimals d.thousandths),
    (decimals d.thousandths).length, by omega, ?_, ?_⟩
  · have hzeros : 3 - (decimals d.thousandths).length = zeros := by omega
    have hpow : 10 ^ (decimals d.thousandths).length * 10 ^ zeros = 1000 := by
      rw [← pow_add, hlength]
      rfl
    calc Decimal.ofDigits (Nat.toDigits 10 (d.thousandths / 1000) ++ decimals d.thousandths) *
          10 ^ (3 - (decimals d.thousandths).length)
        = (10 ^ (decimals d.thousandths).length * 10 ^ zeros) * (d.thousandths / 1000) +
            10 ^ zeros * Decimal.ofDigits (decimals d.thousandths) := by
          rw [hzeros, Decimal.ofDigits_append, Decimal.ofDigits_toDigits]
          ring
      _ = d.thousandths := by
          rw [hpow, hvalue, Nat.div_add_mod]
  · rw [← toList_secondsText] at hread
    cases htext : d.secondsText.toList with
    | nil =>
      rw [toList_secondsText] at htext
      exact absurd (List.append_eq_nil_iff.1 htext).1 Nat.toDigits_ne_nil
    | cons c cs =>
      have hc : c.isDigit = true := by
        apply hwhole
        apply List.mem_of_mem_head?
        rw [← List.head?_append_of_ne_nil _ Nat.toDigits_ne_nil, ← toList_secondsText, htext]
        rfl
      rw [htext] at hread
      rw [Number.read?_of_isDigit hc, hread, Option.map_some]

theorem isDigit_of_mem_secondsText {c : Char} (hc : c ∈ d.secondsText.toList) :
    c.isDigit = true ∨ c = '.' := by
  rw [toList_secondsText] at hc
  rcases List.mem_append.1 hc with hwhole | hrest
  · exact .inl (Decimal.isDigit_of_mem_toDigits hwhole)
  · split at hrest
    · cases hrest
    · rcases List.mem_cons.1 hrest with rfl | hfraction
      · exact .inr rfl
      · exact .inl ((decimals_spec d.thousandths).1 c hfraction)

theorem trim_secondsText (d : Duration) :
    Text.trim d.secondsText.toList = d.secondsText.toList := by
  have hplain : ∀ c ∈ d.secondsText.toList, Text.isBlank c = false := by
    intro c hc
    rcases isDigit_of_mem_secondsText hc with hdigit | rfl
    · exact Text.isBlank_of_isDigit hdigit
    · rfl
  exact Text.trim_of_forall hplain

/-! ## Rounding there and back -/

/-- The thousandths that are printed are nearest to the duration. -/
theorem abs_thousandths_sub_le (h : d.nanos < 2 ^ 22 * 1000000000) :
    |(d.thousandths * 1000000 : Int) - d.nanos| ≤ 500000 := by
  have hseconds : d.seconds < 2 ^ 22 := Nat.div_lt_of_lt_mul (by omega)
  have hbinary := abs_binarySeconds_sub_le_zpow (by norm_num) hseconds
  have hround := abs_roundEven_sub_le (d.binarySeconds * 1000)
  have hnonneg : 0 ≤ roundEven (d.binarySeconds * 1000) := by
    apply le_roundEven
    rw [Int.cast_zero]
    exact mul_nonneg (nearest_nonneg _) (by norm_num)
  have hcast : (d.thousandths : Int) = roundEven (d.binarySeconds * 1000) :=
    Int.toNat_of_nonneg hnonneg
  rw [← hcast] at hround
  norm_num at hbinary
  rw [abs_le] at hbinary hround
  push_cast at hround
  have hlower : (d.nanos : Rat) < ((d.thousandths * 1000000 + 500001 : Nat) : Rat) := by
    push_cast
    linarith
  have hupper : ((d.thousandths * 1000000 : Nat) : Rat) < ((d.nanos + 500001 : Nat) : Rat) := by
    push_cast
    linarith
  have hlow := Nat.cast_lt.1 hlower
  have hhigh := Nat.cast_lt.1 hupper
  rw [abs_le]
  omega

theorem thousandths_le (h : d.nanos < 2 ^ 22 * 1000000000) : d.thousandths ≤ 2 ^ 22 * 1000 := by
  have herror := (abs_le.1 (abs_thousandths_sub_le h)).2
  omega

variable {n : Nat}

/-- Thousandths are still told apart when they were rounded to a binary number. -/
theorem roundEven_nearest_thousandths (hn : n ≤ 2 ^ 22 * 1000) :
    roundEven (nearest (n / 1000) * 1000000000) = n * 1000000 := by
  rcases Nat.eq_zero_or_pos n with rfl | hpos
  · rw [Nat.cast_zero, zero_div, nearest_zero, zero_mul, roundEven_zero, Nat.cast_zero, zero_mul]
  · have hle : (n : Rat) ≤ 2 ^ 22 * 1000 := by exact_mod_cast hn
    have hlt : (n : Rat) / 1000 < 2 ^ (23 : Int) := by
      rw [div_lt_iff₀ (by norm_num)]
      norm_num
      linarith
    have herror := abs_nearest_sub_le (div_pos (Nat.cast_pos.2 hpos) (by norm_num)) hlt (by omega)
    apply roundEven_eq_of_abs_sub_lt
    norm_num at herror
    rw [abs_le] at herror
    push_cast
    rw [abs_lt]
    constructor <;> linarith

theorem toBinary64?_thousandths {digits places : Nat} (hplaces : places ≤ 3)
    (hvalue : digits * 10 ^ (3 - places) = n) (hn : n ≤ 2 ^ 22 * 1000) :
    Decimal.toBinary64? ⟨digits, -places⟩ = some (nearest (n / 1000)) := by
  have hrat : (digits : Rat) * 10 ^ (-(places : Int)) = n / 1000 := by
    rw [← hvalue]
    push_cast
    have hsplit : (10 : Rat) ^ (3 - places) = 1000 * 10 ^ (-(places : Int)) := by
      have hthousand : (1000 : Rat) = 10 ^ (3 : Int) := by norm_num
      rw [hthousand, ← zpow_add₀ (by norm_num), ← zpow_natCast]
      congr 1
      omega
    rw [hsplit]
    ring
  have hlength : (Nat.toDigits 10 digits).length ≤ 10 := by
    apply Nat.toDigits_length 10 digits 10 (by norm_num)
    have hle : digits ≤ n := by
      rw [← hvalue]
      exact Nat.le_mul_of_pos_right _ (by positivity)
    omega
  have hfinite : nearest ((n : Rat) / 1000) < overflow := by
    have hle : (n : Rat) / 1000 ≤ 2 ^ (22 : Int) := by
      rw [div_le_iff₀ (by norm_num)]
      exact_mod_cast hn
    calc nearest ((n : Rat) / 1000) ≤ nearest (2 ^ (22 : Int)) := nearest_mono hle
      _ = 2 ^ (22 : Int) := nearest_two_zpow (by norm_num)
      _ < overflow := two_zpow_lt_iff.2 (by norm_num)
  unfold Decimal.toBinary64?
  simp only
  rw [hrat, if_pos hfinite]
  split_ifs with hzero hbig hsmall
  · rw [← hvalue, hzero, Nat.zero_mul, Nat.cast_zero, zero_div, nearest_zero]
  · omega
  · omega
  · rfl

theorem ofSecondsText?_secondsText (h : d.nanos < 2 ^ 22 * 1000000000) :
    ofSecondsText? d.secondsText.toList = some (.ofMillis d.thousandths) := by
  obtain ⟨digits, places, hplaces, hvalue, hread⟩ := exists_read?_secondsText d
  have hle := thousandths_le h
  have hround := roundEven_nearest_thousandths hle
  have hfits : d.thousandths * 1000000 ≤ maxNanos := by
    unfold maxNanos
    omega
  unfold ofSecondsText?
  rw [trim_secondsText, hread]
  simp only
  rw [toBinary64?_thousandths hplaces hvalue hle]
  simp only
  split
  · next hzero =>
    rw [hzero, zero_mul] at hround
    have hnone : d.thousandths = 0 := by
      rw [roundEven_zero] at hround
      omega
    rw [hnone]
    rfl
  · rw [if_neg Bool.false_ne_true]
    unfold ofBinarySeconds?
    have hnanos : (roundEven (nearest ((d.thousandths : Rat) / 1000) * 1000000000)).toNat =
        d.thousandths * 1000000 := by
      rw [hround]
      omega
    simp only [hnanos]
    rw [dif_pos hfits]
    apply congrArg some
    apply Duration.ext
    rw [ofMillis, nanos_ofNanos, Nat.min_eq_left hfits]

theorem thousandths_ofMillis (h : n * 1000000 < 2 ^ 22 * 1000000000) :
    (ofMillis n).thousandths = n := by
  have hnanos : (ofMillis n).nanos = n * 1000000 := by
    rw [ofMillis, nanos_ofNanos]
    unfold maxNanos
    omega
  have herror := abs_le.1 (abs_thousandths_sub_le (d := ofMillis n) (by omega))
  rw [hnanos] at herror
  omega

end Duration

end Choreo
