import Choreo.Decimal
import Choreo.Proofs.Text
import Mathlib.Algebra.Group.Int.Defs
import Mathlib.Algebra.Group.Nat.Defs
import Mathlib.Data.List.Induction

/-!
# Whole numbers in digits

A number is spelt by its decimal digits, with any number of zeros in front of them. Every text of digits
spells a number, and only one. A whole number is written with a sign in front or without one.
-/

namespace Choreo.Decimal

theorem ofDigits_eq (cs : List Char) : ofDigits cs = Nat.ofDigitChars 10 cs 0 :=
  Nat.ofDigitChars_eq_foldl.symm

theorem ofDigits_append (cs ds : List Char) :
    ofDigits (cs ++ ds) = 10 ^ ds.length * ofDigits cs + ofDigits ds := by
  have hfold : ofDigits (cs ++ ds) = Nat.ofDigitChars 10 ds (ofDigits cs) := by
    rw [Nat.ofDigitChars_eq_foldl, ofDigits, List.foldl_append]
    rfl
  rw [hfold, Nat.ofDigitChars_eq_ofDigitChars_zero, ← ofDigits_eq]

theorem ofDigits_replicate_zero (n : Nat) : ofDigits (List.replicate n '0') = 0 := by
  induction n with
  | zero => rfl
  | succ n ih => rw [List.replicate_succ', ofDigits_append, ih]; rfl

theorem toList_repr (n : Nat) : (Nat.repr n).toList = Nat.toDigits 10 n := String.toList_ofList

theorem ofDigits_toDigits (n : Nat) : ofDigits (Nat.toDigits 10 n) = n := by
  rw [ofDigits_eq, Nat.ofDigitChars_ten_toDigits]

theorem isDigit_of_mem_toDigits {n : Nat} {c : Char} (hc : c ∈ Nat.toDigits 10 n) :
    c.isDigit = true :=
  Nat.isDigit_of_mem_toDigits (by decide) (by decide) hc

/-- The digits of a number, with some zeros in front of them. -/
def Spells (digits : List Char) (n : Nat) : Prop :=
  ∃ zeros, digits = List.replicate zeros '0' ++ Nat.toDigits 10 n

/-- A whole number of any size, with a sign or without. -/
def Writes (text : List Char) (n : Int) : Prop :=
  ∃ digits magnitude, Spells digits magnitude ∧
    ((text = digits ∨ text = '+' :: digits) ∧ n = magnitude ∨ text = '-' :: digits ∧ n = -magnitude)

variable {cs : List Char} {c : Char}

theorem digit_lt (hc : c.isDigit = true) : c.toNat - '0'.toNat < 10 := by
  have hbounds := Text.toNat_of_isDigit hc
  have hzero : '0'.toNat = 48 := rfl
  omega

theorem toDigits_of_isDigit (hc : c.isDigit = true) :
    Nat.toDigits 10 (c.toNat - '0'.toNat) = [c] := by
  have hbounds := Text.toNat_of_isDigit hc
  have hzero : '0'.toNat = 48 := rfl
  rw [Nat.toDigits_of_lt_base (digit_lt hc)]
  congr 1
  apply Char.toNat_inj.1
  rw [Nat.toNat_digitChar_of_lt_ten (digit_lt hc)]
  omega

theorem spells_ofDigits (hdigits : ∀ c ∈ cs, c.isDigit = true) (hne : cs ≠ []) :
    Spells cs (ofDigits cs) := by
  induction cs using List.reverseRecOn with
  | nil => exact absurd rfl hne
  | append_singleton cs c ih =>
    have hc := hdigits c (List.mem_append_right cs (List.mem_singleton_self c))
    have hlast := toDigits_of_isDigit hc
    have hvalue : ofDigits (cs ++ [c]) = 10 * ofDigits cs + (c.toNat - '0'.toNat) := by
      rw [ofDigits_append]
      simp [ofDigits]
    rw [hvalue]
    by_cases hempty : cs = []
    · subst hempty
      have hnothing : 10 * ofDigits [] + (c.toNat - '0'.toNat) = c.toNat - '0'.toNat :=
        Nat.zero_add _
      rw [hnothing, ← hlast]
      exact ⟨0, rfl⟩
    · obtain ⟨zeros, hzeros⟩ := ih (fun d hd => hdigits d (List.mem_append_left _ hd)) hempty
      rcases Nat.eq_zero_or_pos (ofDigits cs) with hnone | hpos
      · -- Nothing but zeros stands before the last digit.
        refine ⟨zeros + 1, ?_⟩
        rw [hnone] at hzeros ⊢
        rw [Nat.mul_zero, Nat.zero_add, hlast, List.replicate_succ', hzeros]
        rfl
      · refine ⟨zeros, ?_⟩
        rw [← Nat.toDigits_append_toDigits (by decide) hpos (digit_lt hc), hlast,
          ← List.append_assoc, ← hzeros]

theorem spells_iff {n : Nat} :
    Spells cs n ↔ cs ≠ [] ∧ (∀ c ∈ cs, c.isDigit = true) ∧ ofDigits cs = n := by
  constructor
  · rintro ⟨zeros, rfl⟩
    refine ⟨?_, fun c hc => ?_, ?_⟩
    · intro hempty
      exact Nat.toDigits_ne_nil (List.append_eq_nil_iff.1 hempty).2
    · rcases List.mem_append.1 hc with hzero | hdigit
      · rw [List.eq_of_mem_replicate hzero]
        rfl
      · exact isDigit_of_mem_toDigits hdigit
    · rw [ofDigits_append, ofDigits_replicate_zero, ofDigits_toDigits, Nat.mul_zero, Nat.zero_add]
  · rintro ⟨hne, hdigits, rfl⟩
    exact spells_ofDigits hdigits hne

theorem Spells.isDigit {n : Nat} (h : Spells cs n) (hc : c ∈ cs) : c.isDigit = true :=
  (spells_iff.1 h).2.1 c hc

/-- Behind a sign there is a number if and only if there are digits and nothing else. -/
theorem digits_eq_some_iff {negative : Bool} {n : Int} :
    (if cs = [] ∨ !cs.all Char.isDigit then none
      else some (if negative then -(ofDigits cs : Int) else ofDigits cs)) = some n ↔
    ∃ magnitude : Nat, Spells cs magnitude ∧
      n = if negative then -(magnitude : Int) else magnitude := by
  have hread : ¬(cs = [] ∨ (!cs.all Char.isDigit) = true) ↔
      cs ≠ [] ∧ ∀ c ∈ cs, c.isDigit = true := by
    simp
  simp only [spells_iff]
  by_cases h : cs = [] ∨ (!cs.all Char.isDigit) = true
  · rw [if_pos h]
    refine iff_of_false nofun ?_
    rintro ⟨_, ⟨hne, hdigits, -⟩, -⟩
    exact hread.2 ⟨hne, hdigits⟩ h
  · rw [if_neg h]
    obtain ⟨hne, hdigits⟩ := hread.1 h
    constructor
    · intro hn
      exact ⟨ofDigits cs, ⟨hne, hdigits, rfl⟩, (Option.some.inj hn).symm⟩
    · rintro ⟨_, ⟨-, -, rfl⟩, rfl⟩
      rfl

theorem readInteger?_eq_some_iff {n : Int} : readInteger? cs = some n ↔ Writes cs n := by
  unfold readInteger?
  split
  next negative ds hsign =>
    refine digits_eq_some_iff.trans ?_
    split at hsign
    · next rest =>
      cases hsign
      constructor
      · rintro ⟨magnitude, hspells, rfl⟩
        exact ⟨ds, magnitude, hspells, .inr ⟨rfl, rfl⟩⟩
      · rintro ⟨digits, magnitude, hspells, ⟨rfl | htext, rfl⟩ | ⟨htext, rfl⟩⟩
        · cases hspells.isDigit List.mem_cons_self
        · cases htext
        · cases htext
          exact ⟨magnitude, hspells, rfl⟩
    · next rest =>
      cases hsign
      constructor
      · rintro ⟨magnitude, hspells, rfl⟩
        exact ⟨ds, magnitude, hspells, .inl ⟨.inr rfl, rfl⟩⟩
      · rintro ⟨digits, magnitude, hspells, ⟨rfl | htext, rfl⟩ | ⟨htext, rfl⟩⟩
        · cases hspells.isDigit List.mem_cons_self
        · cases htext
          exact ⟨magnitude, hspells, rfl⟩
        · cases htext
    · next hminus hplus =>
      cases hsign
      constructor
      · rintro ⟨magnitude, hspells, rfl⟩
        exact ⟨cs, magnitude, hspells, .inl ⟨.inl rfl, rfl⟩⟩
      · rintro ⟨digits, magnitude, hspells, ⟨rfl | htext, rfl⟩ | ⟨htext, rfl⟩⟩
        · exact ⟨magnitude, hspells, rfl⟩
        · exact absurd htext (hplus digits)
        · exact absurd htext (hminus digits)

theorem Writes.ne_nil {n : Int} (h : Writes cs n) : cs ≠ [] := by
  obtain ⟨digits, magnitude, hspells, ⟨rfl | rfl, -⟩ | ⟨rfl, -⟩⟩ := h
  · exact (spells_iff.1 hspells).1
  · exact List.cons_ne_nil _ _
  · exact List.cons_ne_nil _ _

theorem Writes.isBlank {n : Int} (h : Writes cs n) (hc : c ∈ cs) : Text.isBlank c = false := by
  obtain ⟨digits, magnitude, hspells, hsign⟩ := h
  have hdigit : c = '+' ∨ c = '-' ∨ c ∈ digits := by
    obtain ⟨rfl | rfl, -⟩ | ⟨rfl, -⟩ := hsign
    · exact .inr (.inr hc)
    · exact (List.mem_cons.1 hc).imp id .inr
    · exact .inr (List.mem_cons.1 hc)
  rcases hdigit with rfl | rfl | hdigit
  · rfl
  · rfl
  · exact Text.isBlank_of_isDigit (hspells.isDigit hdigit)

end Choreo.Decimal
