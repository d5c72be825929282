import Choreo.Proofs.Decimal
import Choreo.Script.Padding

/-!
# Paddings as they are written

The argument of a padding begins with a number or it does not. A number that fits in 64 bits is brought
between 1 and 100, and what stands behind it is the command. Every other argument that is not blank is
the command as a whole. This holds for a number beyond 64 bits too: it does not count as 100 or 1, but
is sent along with the command.
-/

namespace Choreo.Padding

/-- A number and a command, with blanks between them and around them. -/
inductive Numbered : List Char → Int → List Char → Prop where
  | intro {before number gap payload after : List Char} {n : Int}
      (hbefore : ∀ c ∈ before, Text.isBlank c = true) (hnumber : Decimal.Writes number n)
      (hgap : gap ≠ []) (hblank : ∀ c ∈ gap, Text.isBlank c = true) (hpayload : payload ≠ [])
      (htrim : Text.trim payload = payload) (hafter : ∀ c ∈ after, Text.isBlank c = true) :
      Numbered (before ++ (number ++ gap ++ payload) ++ after) n payload

def Fits (n : Int) : Prop := -2 ^ 63 ≤ n ∧ n < 2 ^ 63

instance (n : Int) : Decidable (Fits n) := inferInstanceAs (Decidable (_ ∧ _))

def whole (argument : List Char) : Padding := ⟨40, String.ofList (Text.trim argument)⟩

variable {argument payload text : List Char} {n : Int}

theorem readCount?_eq_some_iff : readCount? text = some n ↔ Decimal.Writes text n ∧ Fits n := by
  unfold readCount? Fits
  rw [← Decimal.readInteger?_eq_some_iff]
  cases Decimal.readInteger? text with
  | none => simp
  | some m =>
    simp only [Option.some.injEq]
    constructor
    · intro hread
      split at hread
      · next hfits =>
        cases hread
        exact ⟨rfl, by omega⟩
      · cases hread
    · rintro ⟨rfl, hfits⟩
      exact if_pos (by omega)

theorem readCount?_of_writes (h : Decimal.Writes text n) :
    readCount? text = if Fits n then some n else none := by
  split
  · next hfits => exact readCount?_eq_some_iff.2 ⟨h, hfits⟩
  · next hbeyond =>
    rw [Option.eq_none_iff_forall_ne_some]
    intro m hread
    obtain ⟨hwrites, hfits⟩ := readCount?_eq_some_iff.1 hread
    have hsame := (Decimal.readInteger?_eq_some_iff.2 hwrites).symm.trans
      (Decimal.readInteger?_eq_some_iff.2 h)
    cases hsame
    exact hbeyond hfits

theorem one_le_clampCount (n : Int) : 1 ≤ clampCount n := by
  unfold clampCount
  omega

theorem clampCount_le (n : Int) : clampCount n ≤ maxCount := by
  unfold clampCount maxCount
  omega

theorem read?_eq_none_iff : read? argument = none ↔ ∀ c ∈ argument, Text.isBlank c = true := by
  rw [← Text.trim_eq_nil_iff]
  unfold read?
  simp only
  by_cases hnothing : Text.trim argument = []
  · rw [if_pos hnothing]
    exact iff_of_true rfl hnothing
  · rw [if_neg hnothing]
    refine iff_of_false ?_ hnothing
    split
    · exact Option.some_ne_none _
    · split <;> exact Option.some_ne_none _

/-- The first word of a trimmed argument with a number is the number. -/
theorem Numbered.splits (h : Numbered argument n payload) :
    ∃ first blank rest, Text.splitWord (Text.trim argument) = (first, blank :: rest) ∧
      Decimal.Writes first n ∧ Text.trim rest = payload := by
  cases h with
  | @intro before number gap _ after _ hbefore hnumber hgap hblank hpayload htrim hafter =>
    obtain ⟨blank, gap, rfl⟩ := List.exists_cons_of_ne_nil hgap
    obtain ⟨hb, hgap'⟩ := List.forall_mem_cons.1 hblank
    have hends : Text.trim (number ++ blank :: gap ++ payload) =
        number ++ blank :: gap ++ payload := by
      obtain ⟨c, number', rfl⟩ := List.exists_cons_of_ne_nil hnumber.ne_nil
      have hlast := List.getLast?_eq_some_getLast hpayload
      refine Text.trim_of_ends (hnumber.isBlank List.mem_cons_self)
        (Text.isBlank_getLast?_of_trim htrim hlast) rfl ?_
      rw [List.getLast?_append, hlast, Option.some_or]
    refine ⟨number, blank, gap ++ payload, ?_, hnumber, ?_⟩
    · rw [Text.trim_around hbefore hafter hends, List.append_assoc, List.cons_append]
      exact Text.splitWord_append (fun c hc => hnumber.isBlank hc) hb
    · have haround := Text.trim_around hgap' (List.forall_mem_nil _) htrim
      rwa [List.append_nil] at haround

/-- If a number is the first word of an argument and not the only one, a command stands behind it. -/
theorem numbered_of_splits {first rest : List Char} {blank : Char}
    (hsplit : Text.splitWord (Text.trim argument) = (first, blank :: rest))
    (hfirst : Decimal.Writes first n) : Numbered argument n (Text.trim rest) := by
  obtain ⟨hargs, hword, hblank⟩ := Text.splitWord_spec hsplit
  obtain ⟨before, after, hbefore, hafter, hargument⟩ := Text.exists_eq_append_trim argument
  obtain ⟨gap, after', hgap, hafter', hrest⟩ := Text.exists_eq_append_trim rest
  have hb := hblank blank rfl
  have hne : Text.trim rest ≠ [] := by
    intro hnothing
    -- With nothing but blanks behind its first word the argument would not have been trimmed.
    have hall : ∀ c ∈ blank :: rest, Text.isBlank c = true :=
      List.forall_mem_cons.2 ⟨hb, Text.trim_eq_nil_iff.1 hnothing⟩
    have htrim := Text.trim_around (List.forall_mem_nil _) hall (Text.trim_of_forall hword)
    rw [List.nil_append, ← hargs, Text.trim_trim, hargs] at htrim
    exact List.cons_ne_nil _ _ (List.append_right_eq_self.1 htrim)
  have hwhole : argument =
      before ++ (first ++ (blank :: gap) ++ Text.trim rest) ++ (after' ++ after) := by
    calc argument = before ++ (first ++ blank :: rest) ++ after := by rw [← hargs]; exact hargument
      _ = before ++ (first ++ blank :: (gap ++ Text.trim rest ++ after')) ++ after := by rw [← hrest]
      _ = _ := by simp only [List.append_assoc, List.cons_append]
  rw [hwhole]
  exact .intro hbefore hfirst (List.cons_ne_nil _ _) (List.forall_mem_cons.2 ⟨hb, hgap⟩) hne
    (Text.trim_trim rest) (List.forall_mem_append.2 ⟨hafter', hafter⟩)

theorem Numbered.read?_eq (h : Numbered argument n payload) :
    read? argument = some (if Fits n then ⟨clampCount n, String.ofList payload⟩
      else whole argument) := by
  obtain ⟨first, blank, rest, hsplit, hfirst, rfl⟩ := h.splits
  have hne : Text.trim argument ≠ [] := by
    intro hnothing
    rw [hnothing] at hsplit
    cases hsplit
  unfold read?
  simp only [if_neg hne, hsplit, readCount?_of_writes hfirst]
  by_cases hfits : Fits n
  · simp only [if_pos hfits]
  · simp only [if_neg hfits]
    rfl

theorem read?_of_not_numbered (hargument : ∀ n payload, ¬Numbered argument n payload)
    (hne : ¬∀ c ∈ argument, Text.isBlank c = true) : read? argument = some (whole argument) := by
  rw [← Text.trim_eq_nil_iff] at hne
  unfold read?
  simp only [if_neg hne]
  split
  · rfl
  · next first blank rest hsplit =>
    cases hcount : readCount? first with
    | none => rfl
    | some n =>
      have hfirst := (readCount?_eq_some_iff.1 hcount).1
      exact absurd (numbered_of_splits hsplit hfirst) (hargument n _)

/-- What is sent, and how often, whatever the argument is. -/
theorem read?_bounds {padding : Padding} (hread : read? argument = some padding) :
    1 ≤ padding.count ∧ padding.count ≤ 100 ∧ padding.payload ≠ "" ∧
      Text.trim padding.payload.toList = padding.payload.toList := by
  have hbounds (count : Nat) (payload : List Char) (hcount : 1 ≤ count ∧ count ≤ 100)
      (hne : payload ≠ []) (htrim : Text.trim payload = payload) :
      1 ≤ count ∧ count ≤ 100 ∧ String.ofList payload ≠ "" ∧
        Text.trim (String.ofList payload).toList = (String.ofList payload).toList := by
    rw [String.toList_ofList]
    exact ⟨hcount.1, hcount.2, mt String.ofList_eq_empty_iff.1 hne, htrim⟩
  have hsome : ¬∀ c ∈ argument, Text.isBlank c = true := by
    rw [← read?_eq_none_iff, hread]
    exact Option.some_ne_none _
  have hwhole := hbounds 40 (Text.trim argument) (by decide) (mt Text.trim_eq_nil_iff.1 hsome)
    (Text.trim_trim argument)
  by_cases hnumbered : ∃ n payload, Numbered argument n payload
  · obtain ⟨n, payload, h⟩ := hnumbered
    rw [h.read?_eq, Option.some.injEq] at hread
    split at hread
    · subst hread
      cases h with
      | intro _ _ _ _ hpayload htrim _ =>
        exact hbounds _ payload ⟨one_le_clampCount n, clampCount_le n⟩ hpayload htrim
    · subst hread
      exact hwhole
  · rw [read?_of_not_numbered (fun n payload h => hnumbered ⟨n, payload, h⟩) hsome,
      Option.some.injEq] at hread
    subst hread
    exact hwhole

/-- An argument with a number is a count between 1 and 100 and a command, if the number fits. Otherwise
the whole argument is the command, unless it is blank. -/
theorem written_padding (argument : List Char) :
    (∀ n payload, Numbered argument n payload →
      read? argument = some (if Fits n then ⟨(max 1 (min n 100)).toNat, String.ofList payload⟩
        else whole argument)) ∧
      (read? argument = none ↔ ∀ c ∈ argument, Text.isBlank c = true) ∧
      ((∀ n payload, ¬Numbered argument n payload) → (¬∀ c ∈ argument, Text.isBlank c = true) →
        read? argument = some (whole argument)) ∧
      ∀ padding, read? argument = some padding →
        1 ≤ padding.count ∧ padding.count ≤ 100 ∧ padding.payload ≠ "" ∧
          Text.trim padding.payload.toList = padding.payload.toList :=
  ⟨fun _ _ h => h.read?_eq, read?_eq_none_iff, read?_of_not_numbered, fun _ => read?_bounds⟩

/-- A sign, zeros, and blanks of several kinds. A number by itself is the command. -/
theorem written_padding_signed :
    Numbered "\t+00500\u3000/ac jump ".toList 500 "/ac jump".toList ∧
      read? "\t+00500\u3000/ac jump ".toList = some ⟨100, "/ac jump"⟩ ∧
      (∀ n payload, ¬Numbered "7".toList n payload) ∧ read? "7".toList = some ⟨40, "7"⟩ := by
  have hnumber : Decimal.Writes "+00500".toList 500 :=
    Decimal.readInteger?_eq_some_iff.1 (by decide)
  have hsplit : Text.splitWord (Text.trim "\t+00500\u3000/ac jump ".toList) =
      ("+00500".toList, '\u3000' :: "/ac jump".toList) := by decide
  have hnumbered : Numbered "\t+00500\u3000/ac jump ".toList 500 "/ac jump".toList :=
    numbered_of_splits hsplit hnumber
  have halone (n : Int) (payload : List Char) : ¬Numbered "7".toList n payload := by
    intro h
    obtain ⟨_, _, _, hsplit', -, -⟩ := h.splits
    cases hsplit'
  have hseven : ¬∀ c ∈ "7".toList, Text.isBlank c = true :=
    fun hblank => Bool.false_ne_true (hblank '7' (List.mem_singleton_self _))
  exact ⟨hnumbered, (written_padding _).1 500 _ hnumbered, halone,
    (written_padding _).2.2.1 halone hseven⟩

/-- The least number that does not fit is not brought down to 100. -/
theorem unread_beyond_64_bits :
    Numbered "9223372036854775808 /ac jump".toList (2 ^ 63) "/ac jump".toList ∧
      read? "9223372036854775808 /ac jump".toList ≠
        some ⟨(max 1 (min (2 ^ 63 : Int) 100)).toNat, "/ac jump"⟩ ∧
      read? "9223372036854775808 /ac jump".toList =
        some ⟨40, "9223372036854775808 /ac jump"⟩ := by
  have hnumber : Decimal.Writes "9223372036854775808".toList (2 ^ 63) :=
    Decimal.readInteger?_eq_some_iff.1 (by decide)
  have hsplit : Text.splitWord (Text.trim "9223372036854775808 /ac jump".toList) =
      ("9223372036854775808".toList, ' ' :: "/ac jump".toList) := by decide
  exact ⟨numbered_of_splits hsplit hnumber, by decide, by decide⟩

end Choreo.Padding
