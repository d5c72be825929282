import Choreo.Proofs.Script.Padding
import Choreo.Script.Directive
import Mathlib.Data.List.Pairwise

/-!
# Keywords

No keyword begins with another one, so at most one applies to a command, and it does not matter in
which order they stand in the table. A command is sent as it stands if none applies to it, or if it asks
for a padding and does not say of what.
-/

namespace Choreo

namespace Keyword

variable {k l : Keyword} {command rest : List Char} {table table' : List Keyword}

/-- The command is the word, or begins with it if the word need not be all. -/
def Applies (k : Keyword) (command : List Char) : Prop :=
  if k.exact then command = k.text else k.text <+: command

instance (k : Keyword) (command : List Char) : Decidable (k.Applies command) :=
  inferInstanceAs (Decidable (ite _ _ _))

def Apart (k l : Keyword) : Prop := ¬k.text <+: l.text ∧ ¬l.text <+: k.text

instance (k l : Keyword) : Decidable (k.Apart l) := inferInstanceAs (Decidable (_ ∧ _))

instance : Std.Symm Apart := ⟨fun _ _ h => ⟨h.2, h.1⟩⟩

theorem argument?_eq_some_iff :
    k.argument? command = some rest ↔ k.Applies command ∧ command = k.text ++ rest := by
  unfold argument? Applies
  cases hafter : Text.afterPrefix? k.text command with
  | none =>
    refine iff_of_false nofun fun h => ?_
    rw [Text.afterPrefix?_eq_some_iff.2 h.2] at hafter
    cases hafter
  | some rest' =>
    rw [Text.afterPrefix?_eq_some_iff] at hafter
    subst hafter
    cases hexact : k.exact with
    | false => simp [eq_comm]
    | true => simp [eq_comm]

theorem Applies.begins (h : k.Applies command) : k.text <+: command := by
  unfold Applies at h
  split at h
  · exact h ▸ List.prefix_refl _
  · exact h

theorem argument?_eq_none_iff : k.argument? command = none ↔ ¬k.Applies command := by
  rw [Option.eq_none_iff_forall_ne_some]
  constructor
  · intro hnone happlies
    obtain ⟨rest, hrest⟩ := happlies.begins
    exact hnone rest (argument?_eq_some_iff.2 ⟨happlies, hrest.symm⟩)
  · intro hnot rest hrest
    exact hnot (argument?_eq_some_iff.1 hrest).1

theorem Apart.not_applies (h : k.Apart l) (hk : k.Applies command) : ¬l.Applies command := by
  intro hl
  have hor := List.prefix_or_prefix_of_prefix hk.begins hl.begins
  exact hor.elim h.1 h.2

theorem countP_applies_le_one (h : table.Pairwise Apart) (command : List Char) :
    table.countP (fun k => k.Applies command) ≤ 1 := by
  induction h with
  | nil => exact Nat.zero_le _
  | @cons k table hk _ ih =>
    by_cases happlies : k.Applies command
    · have hnone : table.countP (fun l => l.Applies command) = 0 := by
        rw [List.countP_eq_zero]
        intro l hl
        simpa using (hk l hl).not_applies happlies
      rw [List.countP_cons, hnone]
      split <;> omega
    · rw [List.countP_cons_of_neg (by simpa using happlies)]
      exact ih

theorem eq_of_applies (h : table.Pairwise Apart) (hk : k ∈ table) (hl : l ∈ table)
    (hk' : k.Applies command) (hl' : l.Applies command) : k = l := by
  by_contra hne
  have hapart : k.Apart l := h.forall hk hl hne
  exact hapart.not_applies hk' hl'

theorem classifyBy_perm (h : table.Pairwise Apart) (hperm : table'.Perm table)
    (command : List Char) :
    Directive.classifyBy table' command = Directive.classifyBy table command := by
  -- What the words of the table make of a command is one directive or none.
  have hshort : (table.filterMap (·.directive? command)).length ≤ 1 := by
    rw [List.length_filterMap_eq_countP]
    refine le_trans (List.countP_mono_left fun k _ hsome => ?_) (countP_applies_le_one h command)
    rw [decide_eq_true_iff]
    by_contra hnot
    rw [directive?, argument?_eq_none_iff.2 hnot] at hsome
    cases hsome
  have hfound := hperm.filterMap (·.directive? command)
  have hsame : table'.filterMap (·.directive? command) =
      table.filterMap (·.directive? command) := by
    generalize table.filterMap (·.directive? command) = found at hshort hfound
    match found with
    | [] => exact hfound.eq_nil
    | [directive] => exact List.perm_singleton.1 hfound
    | _ :: _ :: _ => simp at hshort
  unfold Directive.classifyBy
  rw [← List.head?_filterMap, ← List.head?_filterMap, hsame]

end Keyword

namespace Directive

variable {k : Keyword} {command : List Char}

theorem keywords_apart : keywords.Pairwise Keyword.Apart := by decide

def AsksForPadding (k : Keyword) : Prop := k.text = "/pad ".toList ∨ k.text = "/padding ".toList

theorem AsksForPadding.ne_nil (h : AsksForPadding k) : k.text ≠ [] := by
  rcases h with h | h <;>
  · rw [h]
    decide

/-- Only the words of a padding may decline, and they do if nothing stands behind them. No word means
that a command is to be sent as it stands. -/
theorem read?_of_mem_keywords (hk : k ∈ keywords) (argument : List Char) :
    k.read? argument ≠ some dispatch ∧
      (k.read? argument = none ↔
        AsksForPadding k ∧ ∀ c ∈ argument, Text.isBlank c = true) := by
  have hpad (text : List Char) (htext : text = "/pad ".toList ∨ text = "/padding ".toList) :
      (Padding.read? argument).map pad ≠ some dispatch ∧
        ((Padding.read? argument).map pad = none ↔
          (text = "/pad ".toList ∨ text = "/padding ".toList) ∧
            ∀ c ∈ argument, Text.isBlank c = true) := by
    rw [Option.map_eq_none_iff, Padding.read?_eq_none_iff]
    refine ⟨?_, fun hblank => ⟨htext, hblank⟩, And.right⟩
    cases Padding.read? argument <;> simp
  have hother (directive : Directive) (text : List Char) (hdirective : directive ≠ dispatch)
      (htext : ¬(text = "/pad ".toList ∨ text = "/padding ".toList)) :
      some directive ≠ some dispatch ∧
        (some directive = none ↔ (text = "/pad ".toList ∨ text = "/padding ".toList) ∧
          ∀ c ∈ argument, Text.isBlank c = true) :=
    ⟨fun h => hdirective (Option.some.inj h), iff_of_false nofun fun h => htext h.1⟩
  simp only [keywords, List.mem_cons, List.not_mem_nil, or_false] at hk
  unfold AsksForPadding
  rcases hk with rfl | rfl | rfl | rfl | rfl | rfl | rfl | rfl | rfl | rfl | rfl
  iterate 9 exact hother _ _ nofun (by decide)
  · exact hpad _ (.inr rfl)
  · exact hpad _ (.inl rfl)

theorem directive?_eq_none_iff (hk : k ∈ keywords) :
    k.directive? command = none ↔ ¬k.Applies command ∨
      AsksForPadding k ∧ ∃ rest, command = k.text ++ rest ∧ ∀ c ∈ rest, Text.isBlank c = true := by
  unfold Keyword.directive?
  cases hargument : k.argument? command with
  | none => exact iff_of_true rfl (.inl (Keyword.argument?_eq_none_iff.1 hargument))
  | some rest =>
    obtain ⟨happlies, rfl⟩ := Keyword.argument?_eq_some_iff.1 hargument
    rw [Option.bind_some, (read?_of_mem_keywords hk rest).2]
    simp [happlies]

theorem classify_eq_dispatch_iff :
    classify command = dispatch ↔
      command ≠ [] ∧ ∀ k ∈ keywords, k.directive? command = none := by
  unfold classify classifyBy
  by_cases hempty : command = []
  · rw [if_pos hempty]
    exact iff_of_false nofun fun h => h.1 hempty
  · rw [if_neg hempty, ← List.findSome?_eq_none_iff]
    cases hfound : keywords.findSome? (·.directive? command) with
    | none => exact iff_of_true rfl ⟨hempty, rfl⟩
    | some directive =>
      refine iff_of_false ?_ nofun
      rintro rfl
      obtain ⟨k, hk, hdirective⟩ := List.exists_of_findSome?_eq_some hfound
      obtain ⟨argument, -, hread⟩ := Option.bind_eq_some_iff.1 hdirective
      exact (read?_of_mem_keywords hk argument).1 hread

/-- At most one keyword applies to a command, so the order of the keywords is of no effect. A command is
sent as it stands if it says something and no keyword applies to it, or if the keyword asks for a
padding and nothing but blanks follows it. -/
theorem keywords_in_any_order (command : List Char) :
    keywords.countP (fun k => k.Applies command) ≤ 1 ∧
      (∀ table, table.Perm keywords → classifyBy table command = classify command) ∧
      (classify command = dispatch ↔
        (command ≠ [] ∧ ∀ k ∈ keywords, ¬k.Applies command) ∨
          ∃ k ∈ keywords, k.Applies command ∧ AsksForPadding k ∧
            ∃ rest, command = k.text ++ rest ∧ ∀ c ∈ rest, Text.isBlank c = true) := by
  refine ⟨Keyword.countP_applies_le_one keywords_apart command,
    fun table hperm => Keyword.classifyBy_perm keywords_apart hperm command, ?_⟩
  rw [classify_eq_dispatch_iff]
  constructor
  · rintro ⟨hne, hnone⟩
    by_cases happlies : ∃ k ∈ keywords, k.Applies command
    · obtain ⟨k, hk, happlies⟩ := happlies
      have hdeclines := (directive?_eq_none_iff hk).1 (hnone k hk)
      exact .inr ⟨k, hk, happlies, hdeclines.resolve_left (not_not_intro happlies)⟩
    · exact .inl ⟨hne, fun k hk happlies' => happlies ⟨k, hk, happlies'⟩⟩
  · rintro (⟨hne, hnot⟩ | ⟨k, hk, happlies, hpad, rest, rfl, hblank⟩)
    · exact ⟨hne, fun k hk => (directive?_eq_none_iff hk).2 (.inl (hnot k hk))⟩
    · refine ⟨?_, fun l hl => (directive?_eq_none_iff hl).2 ?_⟩
      · exact fun hempty => hpad.ne_nil (List.append_eq_nil_iff.1 hempty).1
      · by_cases happlies' : l.Applies (k.text ++ rest)
        · obtain rfl := Keyword.eq_of_applies keywords_apart hk hl happlies happlies'
          exact .inr ⟨hpad, rest, rfl, hblank⟩
        · exact .inl happlies'

/-- The table from its end, and a padding of nothing. -/
theorem keywords_in_any_order_reversed :
    keywords.reverse.Perm keywords ∧
      classifyBy keywords.reverse "/autobussy".toList = busy true ∧
      (∃ k ∈ keywords, k.Applies "/pad \t".toList) ∧
      classifyBy keywords.reverse "/pad \t".toList = dispatch := by
  have hperm := List.reverse_perm keywords
  have hbusy := (keywords_in_any_order "/autobussy".toList).2.1 _ hperm
  have hpad := (keywords_in_any_order "/pad \t".toList).2.1 _ hperm
  refine ⟨hperm, hbusy.trans (by decide), by decide, hpad.trans (by decide)⟩

end Directive

end Choreo
