import Choreo.Text.Blank
import Choreo.Text.Lines
import Mathlib.Data.List.DropRight

/-!
# Trimmed texts and single lines

A text is trimmed if it neither begins nor ends with a blank. Trimming makes it so, and leaves alone
what is trimmed already. A text without line feeds is its own only line.
-/

namespace Choreo.Text

variable {cs ds : List Char} {c d : Char}

theorem trim_eq_rdropWhile (cs : List Char) :
    trim cs = (cs.dropWhile isBlank).rdropWhile isBlank := rfl

theorem trim_sublist (cs : List Char) : (trim cs).Sublist cs :=
  (List.rdropWhile_prefix isBlank _).sublist.trans (List.dropWhile_suffix isBlank).sublist

theorem length_trim_le (cs : List Char) : (trim cs).length ≤ cs.length :=
  (trim_sublist cs).length_le

theorem trim_eq_self_iff :
    trim cs = cs ↔ cs.dropWhile isBlank = cs ∧ cs.rdropWhile isBlank = cs := by
  constructor
  · intro htrim
    have hstart : cs.dropWhile isBlank = cs := by
      apply (List.dropWhile_suffix isBlank).eq_of_length_le
      calc cs.length = (trim cs).length := by rw [htrim]
        _ ≤ (cs.dropWhile isBlank).length := (List.rdropWhile_prefix isBlank _).length_le
    exact ⟨hstart, by rw [trim_eq_rdropWhile, hstart] at htrim; exact htrim⟩
  · rintro ⟨hstart, hend⟩
    rw [trim_eq_rdropWhile, hstart, hend]

theorem trim_trim (cs : List Char) : trim (trim cs) = trim cs := by
  refine trim_eq_self_iff.2 ⟨?_, List.rdropWhile_idempotent isBlank _⟩
  obtain ⟨rest, hrest⟩ := List.rdropWhile_prefix isBlank (cs.dropWhile isBlank)
  change trim cs ++ rest = cs.dropWhile isBlank at hrest
  cases htrim : trim cs with
  | nil => rfl
  | cons c cs' =>
    have hstart := List.dropWhile_idempotent isBlank cs
    rw [← hrest, htrim, List.cons_append, List.dropWhile_cons] at hstart
    rw [List.dropWhile_cons]
    split at hstart
    · next hblank =>
      have hlength := congrArg List.length hstart
      have hle := (List.dropWhile_suffix (l := cs' ++ rest) isBlank).length_le
      rw [List.length_cons] at hlength
      omega
    · next hblank => rw [if_neg hblank]

theorem trim_of_ends (hc : isBlank c = false) (hd : isBlank d = false) (hcs : cs.head? = some c)
    (hds : cs.getLast? = some d) : trim cs = cs := by
  refine trim_eq_self_iff.2 ⟨?_, ?_⟩
  · obtain ⟨rest, rfl⟩ := List.head?_eq_some_iff.1 hcs
    rw [List.dropWhile_cons, if_neg (by rw [hc]; exact Bool.false_ne_true)]
  · obtain ⟨before, rfl⟩ := List.getLast?_eq_some_iff.1 hds
    exact List.rdropWhile_concat_neg isBlank _ _ (by rw [hd]; exact Bool.false_ne_true)

theorem trim_of_forall (hcs : ∀ c ∈ cs, isBlank c = false) : trim cs = cs := by
  cases hhead : cs.head? with
  | none =>
    rw [List.head?_eq_none_iff.1 hhead]
    rfl
  | some c =>
    have hne : cs ≠ [] := by
      rintro rfl
      cases hhead
    exact trim_of_ends (hcs c (List.mem_of_mem_head? hhead)) (hcs _ (List.getLast_mem hne)) hhead
      (List.getLast?_eq_some_getLast hne)

theorem toNat_of_isDigit (hc : c.isDigit = true) : 48 ≤ c.toNat ∧ c.toNat ≤ 57 := by
  have hzero : ('0' : Char).val.toNat = 48 := rfl
  have hnine : ('9' : Char).val.toNat = 57 := rfl
  have hnat : c.toNat = c.val.toNat := rfl
  simp only [Char.isDigit, Bool.and_eq_true, decide_eq_true_eq, ge_iff_le,
    UInt32.le_iff_toNat_le] at hc
  omega

theorem isBlank_of_isDigit (hc : c.isDigit = true) : isBlank c = false := by
  have hbounds := toNat_of_isDigit hc
  simp only [isBlank, Bool.or_eq_false_iff, Bool.and_eq_false_iff, decide_eq_false_iff_not,
    beq_eq_false_iff_ne]
  omega

theorem isBlank_head?_of_trim (htrim : trim cs = cs) (hc : cs.head? = some c) :
    isBlank c = false := by
  have hstart := (trim_eq_self_iff.1 htrim).1
  obtain ⟨rest, rfl⟩ := List.head?_eq_some_iff.1 hc
  rw [List.dropWhile_cons] at hstart
  split at hstart
  · have hlength := congrArg List.length hstart
    have hle := (List.dropWhile_suffix (l := rest) isBlank).length_le
    rw [List.length_cons] at hlength
    omega
  · next hblank => simpa using hblank

theorem isBlank_getLast?_of_trim (htrim : trim cs = cs) (hd : cs.getLast? = some d) :
    isBlank d = false := by
  have hend := (trim_eq_self_iff.1 htrim).2
  obtain ⟨before, rfl⟩ := List.getLast?_eq_some_iff.1 hd
  have hlast := List.rdropWhile_eq_self_iff.1 hend (List.concat_ne_nil d before)
  simpa using hlast

/-! ## Blanks around a text -/

section Around

variable {before after word rest : List Char}

theorem trim_around (hbefore : ∀ c ∈ before, isBlank c = true)
    (hafter : ∀ c ∈ after, isBlank c = true) (htrim : trim cs = cs) :
    trim (before ++ cs ++ after) = cs := by
  rw [trim_eq_rdropWhile, List.append_assoc, List.dropWhile_append_of_pos hbefore]
  cases cs with
  | nil =>
    rw [List.nil_append, List.dropWhile_eq_nil_iff.2 hafter]
    rfl
  | cons c rest =>
    have hc := isBlank_head?_of_trim htrim rfl
    have hafter' : ∀ c ∈ after.reverse, isBlank c = true :=
      fun c hc => hafter c (List.mem_reverse.1 hc)
    rw [List.cons_append, List.dropWhile_cons, if_neg (by rw [hc]; exact Bool.false_ne_true),
      ← List.cons_append, List.rdropWhile, List.reverse_append,
      List.dropWhile_append_of_pos hafter']
    exact (trim_eq_self_iff.1 htrim).2

theorem trim_concat_blank (htrim : trim cs = cs) (hd : isBlank d = true) :
    trim (cs ++ [d]) = cs := by
  have hend : ∀ c ∈ [d], isBlank c = true := fun c hc => List.mem_singleton.1 hc ▸ hd
  exact trim_around (List.forall_mem_nil _) hend htrim

/-- Every text is what trimming leaves of it, with blanks around. -/
theorem exists_eq_append_trim (cs : List Char) :
    ∃ before after, (∀ c ∈ before, isBlank c = true) ∧ (∀ c ∈ after, isBlank c = true) ∧
      cs = before ++ trim cs ++ after := by
  refine ⟨cs.takeWhile isBlank, (cs.dropWhile isBlank).rtakeWhile isBlank,
    fun c hc => List.mem_takeWhile_imp hc, fun c hc => List.mem_rtakeWhile_imp hc, ?_⟩
  rw [trim_eq_rdropWhile, List.append_assoc, List.rdropWhile_append_rtakeWhile,
    List.takeWhile_append_dropWhile]

theorem trim_eq_nil_iff : trim cs = [] ↔ ∀ c ∈ cs, isBlank c = true := by
  constructor
  · intro hnothing c hc
    obtain ⟨before, after, hbefore, hafter, hcs⟩ := exists_eq_append_trim cs
    rw [hcs, hnothing, List.append_nil] at hc
    exact (List.mem_append.1 hc).elim (hbefore c) (hafter c)
  · intro hblank
    have htrim : trim (cs ++ [] ++ []) = [] := trim_around hblank (List.forall_mem_nil _) rfl
    rwa [List.append_nil, List.append_nil] at htrim

/-- A text that begins with something else than a blank does not reach into blanks in front. -/
theorem infix_of_infix_blanks_append (hc : word.head? = some c) (hblank : isBlank c = false)
    (hbefore : ∀ b ∈ before, isBlank b = true) (hword : word <:+: before ++ cs) : word <:+: cs := by
  induction before with
  | nil => exact hword
  | cons b before ih =>
    rcases List.infix_cons_iff.1 hword with ⟨text, htext⟩ | hword
    · obtain ⟨rest, rfl⟩ := List.head?_eq_some_iff.1 hc
      have hb := hbefore b List.mem_cons_self
      rw [← (List.cons.inj htext).1, hblank] at hb
      cases hb
    · exact ih (fun b hb => hbefore b (List.mem_cons_of_mem _ hb)) hword

/-- A text that ends with something else than a blank does not reach into blanks behind. -/
theorem infix_of_infix_append_blanks (hd : word.getLast? = some d) (hblank : isBlank d = false)
    (hafter : ∀ b ∈ after, isBlank b = true) (hword : word <:+: cs ++ after) : word <:+: cs := by
  induction after using List.reverseRecOn with
  | nil => rwa [List.append_nil] at hword
  | append_singleton after b ih =>
    rw [← List.append_assoc] at hword
    rcases List.infix_concat_iff.1 hword with ⟨text, htext⟩ | hword
    · obtain ⟨start, rfl⟩ := List.getLast?_eq_some_iff.1 hd
      rw [← List.append_assoc] at htext
      have hb := hafter b (List.mem_append_right _ (List.mem_singleton_self b))
      rw [← (List.cons.inj (List.append_inj' htext rfl).2).1, hblank] at hb
      cases hb
    · exact ih (fun b hb => hafter b (List.mem_append_left _ hb)) hword

theorem infix_trim_iff (hc : word.head? = some c) (hd : word.getLast? = some d)
    (hcblank : isBlank c = false) (hdblank : isBlank d = false) :
    word <:+: trim cs ↔ word <:+: cs := by
  obtain ⟨before, after, hbefore, hafter, hcs⟩ := exists_eq_append_trim cs
  constructor
  · intro hword
    rw [hcs]
    exact hword.trans (List.infix_append before (trim cs) after)
  · intro hword
    rw [hcs] at hword
    exact infix_of_infix_blanks_append hc hcblank hbefore
      (infix_of_infix_append_blanks hd hdblank hafter hword)

theorem splitWord_append (hword : ∀ c ∈ word, isBlank c = false) (hd : isBlank d = true) :
    splitWord (word ++ d :: rest) = (word, d :: rest) := by
  have hword' : ∀ c ∈ word, (!isBlank c) = true := fun c hc => by rw [hword c hc]; rfl
  have hd' : (!isBlank d) = false := by rw [hd]; rfl
  rw [splitWord, List.takeWhile_append_of_pos hword', List.dropWhile_append_of_pos hword',
    List.takeWhile_cons, List.dropWhile_cons, hd']
  simp

theorem splitWord_spec (hsplit : splitWord cs = (word, rest)) :
    cs = word ++ rest ∧ (∀ c ∈ word, isBlank c = false) ∧
      ∀ d, rest.head? = some d → isBlank d = true := by
  cases hsplit
  refine ⟨(List.takeWhile_append_dropWhile).symm, fun c hc => ?_, fun d hd => ?_⟩
  · simpa using List.mem_takeWhile_imp hc
  · have hnot := List.head?_dropWhile_not (!isBlank ·) cs
    rw [hd] at hnot
    simpa using hnot

end Around

theorem splitLines_of_not_mem (line : List Char) (hcs : '\n' ∉ cs) (hne : line ++ cs ≠ []) :
    splitLines line cs = [line.reverse ++ cs] := by
  induction cs generalizing line with
  | nil =>
    rw [List.append_nil] at hne ⊢
    have hempty : line.isEmpty = false := by simpa using hne
    rw [splitLines, hempty]
    rfl
  | cons c cs ih =>
    rw [List.mem_cons, not_or] at hcs
    obtain ⟨hc, hcs⟩ := hcs
    rw [splitLines, ih (c :: line) hcs (by simp), List.reverse_cons, List.append_assoc]
    · rfl
    · exact fun h => hc h.symm

theorem lines_of_not_mem {text : String} (hline : '\n' ∉ text.toList) (hne : text ≠ "") :
    lines text = [text] := by
  have hne' : ([] : List Char) ++ text.toList ≠ [] := by
    rw [List.nil_append]
    exact fun hempty => hne (String.toList_inj.1 hempty)
  rw [lines, splitLines_of_not_mem [] hline hne', List.reverse_nil, List.nil_append,
    List.map_singleton, String.ofList_toList]

end Choreo.Text
