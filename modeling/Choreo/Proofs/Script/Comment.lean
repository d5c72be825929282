import Choreo.Proofs.Text
import Choreo.Script.Comment
import Mathlib.Algebra.Ring.Parity

/-!
# Where comments start

A character is escaped if an odd number of backslashes stands right before it, and it stands between
quotes if an odd number of quotes before it is not escaped. A comment starts at the first `#` that is
neither. The scanner keeps these two parities on its way through the line.
-/

namespace Choreo.Comment

/-- Whether the character behind a text is escaped. -/
def Escapes (before : List Char) : Prop := Odd (before.rtakeWhile (· = '\\')).length

instance (before : List Char) : Decidable (Escapes before) := inferInstanceAs (Decidable (Odd _))

def quotes (before : List Char) : Nat :=
  (List.range before.length).countP fun i => before[i]? = some '"' ∧ ¬Escapes (before.take i)

/-- Whether a `#` behind a text starts a comment. -/
def Starts (before : List Char) : Prop := ¬Escapes before ∧ Even (quotes before)

instance (before : List Char) : Decidable (Starts before) := inferInstanceAs (Decidable (_ ∧ _))

def IsCommented (line : List Char) : Prop :=
  ∃ before after, line = before ++ '#' :: after ∧ Starts before

variable {before line tail head cs : List Char}

theorem escapes_concat (before : List Char) (c : Char) :
    Escapes (before ++ [c]) ↔ c = '\\' ∧ ¬Escapes before := by
  unfold Escapes
  rw [List.rtakeWhile_concat]
  by_cases hc : c = '\\'
  · rw [if_pos (decide_eq_true hc), List.length_append, List.length_singleton, Nat.odd_add_one]
    exact (and_iff_right hc).symm
  · rw [if_neg (by simpa using hc)]
    exact iff_of_false (by decide) fun h => hc h.1

theorem quotes_concat (before : List Char) (c : Char) :
    quotes (before ++ [c]) = quotes before + if c = '"' ∧ ¬Escapes before then 1 else 0 := by
  unfold quotes
  rw [List.length_append, List.length_singleton, List.range_succ, List.countP_append,
    List.countP_singleton, List.getElem?_concat_length, List.take_left]
  congr 1
  · apply List.countP_congr
    intro i hi
    have hlt : i < before.length := List.mem_range.1 hi
    rw [List.getElem?_append_left hlt, List.take_append_of_le_length hlt.le]
  · simp

/-! ## The scanner -/

/-- A step of the scanner, in terms of what it has read. -/
theorem before?_cons (before : List Char) (c : Char) (cs : List Char) :
    before? (Escapes before) (Odd (quotes before)) (c :: cs) =
      if c = '#' ∧ Starts before then some []
      else (before? (Escapes (before ++ [c])) (Odd (quotes (before ++ [c]))) cs).map (c :: ·) := by
  unfold Starts
  simp only [before?, escapes_concat, quotes_concat]
  by_cases hescaped : Escapes before
  · simp [hescaped]
  · by_cases hbackslash : c = '\\'
    · simp [hescaped, hbackslash]
    · by_cases hquote : c = '"'
      · simp [hescaped, hquote, Nat.odd_add_one, ← Nat.not_odd_iff_even]
      · simp [hescaped, hbackslash, hquote]

/-- The scanner finds the first `#` that starts a comment, if there is one. -/
theorem before?_spec (before cs : List Char) :
    match before? (Escapes before) (Odd (quotes before)) cs with
    | none => ∀ head rest, cs = head ++ '#' :: rest → ¬Starts (before ++ head)
    | some head => (∃ rest, cs = head ++ '#' :: rest) ∧ Starts (before ++ head) ∧
        ∀ head' rest', head = head' ++ '#' :: rest' → ¬Starts (before ++ head') := by
  induction cs generalizing before with
  | nil =>
    intro head rest hnil
    exact absurd hnil.symm (by simp)
  | cons c cs ih =>
    rw [before?_cons]
    split_ifs with hstarts
    · obtain ⟨rfl, hstarts⟩ := hstarts
      refine ⟨⟨cs, rfl⟩, by rwa [List.append_nil], ?_⟩
      intro head' rest' hnil
      exact absurd hnil.symm (by simp)
    · have hrest := ih (before ++ [c])
      -- What stands before a `#` of this text is nothing, or begins with its first character.
      have hcons {text head rest : List Char} (htext : c :: text = head ++ '#' :: rest)
          (hlater : ∀ head', text = head' ++ '#' :: rest → ¬Starts (before ++ [c] ++ head')) :
          ¬Starts (before ++ head) := by
        cases head with
        | nil =>
          rw [List.append_nil]
          exact fun h => hstarts ⟨(List.cons.inj htext).1, h⟩
        | cons d head' =>
          obtain ⟨rfl, hrest⟩ := List.cons.inj htext
          have hnot := hlater head' hrest
          rwa [List.append_assoc] at hnot
      cases hbefore : before? (Escapes (before ++ [c])) (Odd (quotes (before ++ [c]))) cs with
      | none =>
        rw [hbefore] at hrest
        intro head rest htext
        exact hcons htext fun head' => hrest head' rest
      | some found =>
        rw [hbefore] at hrest
        obtain ⟨⟨rest, htext⟩, hfound, hfirst⟩ := hrest
        refine ⟨⟨rest, ?_⟩, ?_, ?_⟩
        · rw [htext, List.cons_append]
        · rwa [List.append_assoc] at hfound
        · intro head' rest' hhead'
          exact hcons hhead' fun head'' => hfirst head'' rest'

theorem before?_line (line : List Char) :
    (¬IsCommented line ∧ before? false false line = none) ∨
      ∃ head rest, line = head ++ '#' :: rest ∧ Starts head ∧ ¬IsCommented head ∧
        before? false false line = some head := by
  have hspec := before?_spec [] line
  have hescapes : decide (Escapes []) = false := rfl
  have hquotes : decide (Odd (quotes [])) = false := rfl
  rw [hescapes, hquotes] at hspec
  cases hbefore : before? false false line with
  | none =>
    rw [hbefore] at hspec
    refine .inl ⟨?_, rfl⟩
    rintro ⟨head, rest, hline, hstarts⟩
    exact hspec head rest hline hstarts
  | some head =>
    rw [hbefore] at hspec
    obtain ⟨⟨rest, hline⟩, hstarts, hfirst⟩ := hspec
    refine .inr ⟨head, rest, hline, hstarts, ?_, rfl⟩
    rintro ⟨head', rest', hhead, hstarts'⟩
    exact hfirst head' rest' hhead hstarts'

theorem isCommented_iff : IsCommented line ↔ before? false false line ≠ none := by
  rcases before?_line line with ⟨hline, hnone⟩ | ⟨head, rest, hline, hstarts, -, hsome⟩
  · exact iff_of_false hline fun h => h hnone
  · exact iff_of_true ⟨head, rest, hline, hstarts⟩ (hsome ▸ Option.some_ne_none head)

instance (line : List Char) : Decidable (IsCommented line) := decidable_of_iff' _ isCommented_iff

theorem strip_of_not_isCommented (hline : ¬IsCommented line) : strip line = line := by
  rw [isCommented_iff, not_not] at hline
  rw [strip, hline]

theorem strip_sublist (line : List Char) : (strip line).Sublist line := by
  rcases before?_line line with ⟨-, hbefore⟩ | ⟨head, rest, rfl, -, -, hbefore⟩
  · rw [strip, hbefore]
  · rw [strip, hbefore]
    exact (Text.trim_sublist head).trans (List.sublist_append_left head ('#' :: rest))

/-- Text without a `#` behind a line has no part in a comment. -/
theorem isCommented_append_iff (htail : '#' ∉ tail) :
    IsCommented (line ++ tail) ↔ IsCommented line := by
  constructor
  · rintro ⟨before, after, hsplit, hstarts⟩
    rcases List.append_eq_append_iff.1 hsplit with ⟨later, rfl, htail'⟩ | ⟨later, hline, hrest⟩
    · exact absurd (htail' ▸ List.mem_append_right later List.mem_cons_self) htail
    · cases later with
      | nil =>
        rw [List.nil_append] at hrest
        exact absurd (hrest ▸ List.mem_cons_self) htail
      | cons c later =>
        obtain ⟨rfl, -⟩ := List.cons.inj hrest
        exact ⟨before, later, hline, hstarts⟩
  · rintro ⟨before, after, rfl, hstarts⟩
    exact ⟨before, after ++ tail, by rw [List.append_assoc, List.cons_append], hstarts⟩

/-- In front of a text without a `#`, a comment leaves less than the whole line. -/
theorem length_strip_append_lt (htail : '#' ∉ tail) (hline : IsCommented line) :
    (strip (line ++ tail)).length < line.length := by
  rcases before?_line (line ++ tail) with ⟨hnot, -⟩ | ⟨head, rest, hsplit, -, -, hbefore⟩
  · exact absurd ((isCommented_append_iff htail).2 hline) hnot
  · have hhead : head.length < line.length := by
      by_contra hle
      rcases List.append_eq_append_iff.1 hsplit with ⟨later, rfl, hlater⟩ | ⟨later, rfl, hlater⟩
      · exact htail (hlater ▸ List.mem_append_right later List.mem_cons_self)
      · cases later with
        | nil =>
          rw [List.nil_append] at hlater
          exact htail (hlater ▸ List.mem_cons_self)
        | cons c later =>
          rw [List.length_append, List.length_cons] at hle
          omega
    rw [strip, hbefore]
    exact (Text.length_trim_le head).trans_lt hhead

theorem strip_eq_self_iff : strip line = line ↔ ¬IsCommented line := by
  refine ⟨fun hsame hline => ?_, strip_of_not_isCommented⟩
  have hlt := length_strip_append_lt List.not_mem_nil hline
  rw [List.append_nil, hsame] at hlt
  exact Nat.lt_irrefl _ hlt

/-! ## What is left of a line -/

def start? (cs : List Char) : Option Nat :=
  (List.range cs.length).find? fun i => cs[i]? = some '#' ∧ Starts (cs.take i)

theorem isCommented_of_getElem? {i : Nat} (hi : cs[i]? = some '#') (hstarts : Starts (cs.take i)) :
    IsCommented cs := by
  obtain ⟨hlt, hhash⟩ := List.getElem?_eq_some_iff.1 hi
  refine ⟨cs.take i, cs.drop (i + 1), ?_, hstarts⟩
  rw [← hhash, List.getElem_cons_drop, List.take_append_drop]

theorem start?_eq_none (hline : ¬IsCommented line) : start? line = none := by
  refine List.find?_eq_none.2 fun i _ hi => hline ?_
  obtain ⟨hhash, hstarts⟩ := of_decide_eq_true hi
  exact isCommented_of_getElem? hhash hstarts

theorem start?_eq_length (hstarts : Starts before) (hfirst : ¬IsCommented before)
    (after : List Char) : start? (before ++ '#' :: after) = some before.length := by
  refine List.find?_range_eq_some.2 ⟨?_, ?_, fun i hi => ?_⟩
  · rw [decide_eq_true_iff, List.take_left, List.getElem?_append_right (Nat.le_refl _), Nat.sub_self]
    exact ⟨rfl, hstarts⟩
  · rw [List.mem_range, List.length_append, List.length_cons]
    omega
  · rw [Bool.not_eq_true', decide_eq_false_iff_not, List.getElem?_append_left hi,
      List.take_append_of_le_length hi.le]
    rintro ⟨hhash, hstarts'⟩
    exact hfirst (isCommented_of_getElem? hhash hstarts')

section Blanks

variable {blanks : List Char} (hblanks : ∀ c ∈ blanks, Text.isBlank c = true)
include hblanks

theorem escapes_append_iff_of_blank (before : List Char) :
    Escapes (blanks ++ before) ↔ Escapes before := by
  induction before using List.reverseRecOn with
  | nil =>
    rw [List.append_nil]
    refine iff_of_false (fun hescapes => ?_) (by decide)
    rcases List.eq_nil_or_concat' blanks with rfl | ⟨blanks, c, rfl⟩
    · exact absurd hescapes (by decide)
    · obtain ⟨rfl, -⟩ := (escapes_concat blanks c).1 hescapes
      exact absurd (hblanks _ (List.mem_append_right _ (List.mem_singleton_self _))) (by decide)
  | append_singleton before c ih =>
    rw [← List.append_assoc, escapes_concat, escapes_concat, ih]

theorem quotes_append_of_blank (before : List Char) :
    quotes (blanks ++ before) = quotes before := by
  induction before using List.reverseRecOn with
  | nil =>
    rw [List.append_nil]
    refine List.countP_eq_zero.2 fun i _ hi => ?_
    have hquote := (of_decide_eq_true hi).1
    exact absurd (hblanks _ (List.mem_of_getElem? hquote)) (by decide)
  | append_singleton before c ih =>
    rw [← List.append_assoc, quotes_concat, quotes_concat, ih]
    simp only [escapes_append_iff_of_blank hblanks before]

/-- Blanks in front of a text change nothing about a `#` behind it. -/
theorem starts_append_iff_of_blank (before : List Char) :
    Starts (blanks ++ before) ↔ Starts before := by
  unfold Starts
  rw [escapes_append_iff_of_blank hblanks, quotes_append_of_blank hblanks]

end Blanks

/-- What is left has no comment, also where trimming takes a blank from behind its backslash. -/
theorem not_isCommented_strip (line : List Char) : ¬IsCommented (strip line) := by
  rcases before?_line line with ⟨hline, -⟩ | ⟨head, rest, rfl, -, hfirst, hbefore⟩
  · rwa [strip_of_not_isCommented hline]
  · rw [strip, hbefore]
    rintro ⟨before, after, hsplit, hstarts⟩
    change Text.trim head = before ++ '#' :: after at hsplit
    obtain ⟨blanks, blanks', hblanks, -, hhead⟩ := Text.exists_eq_append_trim head
    refine hfirst ⟨blanks ++ before, after ++ blanks', ?_, ?_⟩
    · rw [hhead, hsplit, List.append_assoc, List.append_assoc, List.append_assoc, List.cons_append]
    · exact (starts_append_iff_of_blank hblanks before).2 hstarts

/-- A line is cut where its comment starts, at the first `#` that is not escaped and has an even number
of unescaped quotes before it, and what is left is trimmed. Doing it again changes nothing, and neither
does text without a `#` behind a line that has no comment. -/
theorem strip_cuts_at_start (line : List Char) :
    strip line = (match start? line with
      | none => line
      | some i => Text.trim (line.take i)) ∧
    strip (strip line) = strip line ∧
    ∀ tail, '#' ∉ tail → (strip (line ++ tail) = line ++ tail ↔ strip line = line) := by
  refine ⟨?_, strip_of_not_isCommented (not_isCommented_strip line), fun tail htail => ?_⟩
  · rcases before?_line line with ⟨hline, -⟩ | ⟨head, rest, rfl, hstarts, hfirst, hbefore⟩
    · rw [strip_of_not_isCommented hline, start?_eq_none hline]
    · rw [strip, hbefore, start?_eq_length hstarts hfirst]
      simp only [List.take_left]
  · rw [strip_eq_self_iff, strip_eq_self_iff, isCommented_append_iff htail]

/-- Escaped quotes in quotes, an escaped `#`, and an escaped blank in front of the comment. -/
theorem strip_cuts_at_start_escaped :
    let line := "/ac \"Fire \\\"#1\" \\# now\\ # opener".toList
    start? line = some 24 ∧ strip line = "/ac \"Fire \\\"#1\" \\# now\\".toList ∧
      strip (strip line) = strip line ∧ '#' ∉ " <wait.1>".toList ∧
      strip (strip line ++ " <wait.1>".toList) = strip line ++ " <wait.1>".toList := by
  intro line
  obtain ⟨hcut, hagain, -⟩ := strip_cuts_at_start line
  obtain ⟨-, -, happend⟩ := strip_cuts_at_start (strip line)
  have hstart : start? line = some 24 := by decide
  have htail : '#' ∉ " <wait.1>".toList := by decide
  rw [hstart] at hcut
  exact ⟨hstart, hcut.trans (by decide), hagain, htail, (happend _ htail).2 hagain⟩

end Choreo.Comment
