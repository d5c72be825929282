import Choreo.Proofs.Text
import Choreo.Script.WaitToken
import Mathlib.Data.List.Infix

/-!
# Where wait tokens stand

A text without the start of a tag has no tag, whatever else stands in it, and a word needs blanks and
an argument behind it. So a tag that is written behind a text without tokens is the only one that is
found there. Behind a text with tokens it is not: what is left is then shorter than the text.
-/

namespace Choreo

/-! ## Texts in pieces -/

namespace Piece

variable {token? : List Char → Option (List Char × Nat)} {a b cs : List Char}

theorem ofText_skip (skip : Nat) (cs : List Char) :
    ofText token? skip cs = ofText token? 0 (cs.drop skip) := by
  induction cs generalizing skip with
  | nil => rw [List.drop_nil]; rfl
  | cons c cs ih =>
    cases skip with
    | zero => rfl
    | succ skip => rw [ofText, ih, List.drop_succ_cons]

theorem ofText_of_some {argument : List Char} {length : Nat} {c : Char}
    (htoken : token? (c :: cs) = some (argument, length)) :
    ofText token? 0 (c :: cs) = .token argument :: ofText token? 0 (cs.drop length) := by
  rw [ofText, htoken]
  exact congrArg _ (ofText_skip length cs)

theorem ofText_of_none {c : Char} (htoken : token? (c :: cs) = none) :
    ofText token? 0 (c :: cs) = .plain c :: ofText token? 0 cs := by
  rw [ofText, htoken]

/-- Where no token begins, all characters are plain. -/
theorem ofText_append (hplain : ∀ rest, rest <:+ a → rest ≠ [] → token? (rest ++ b) = none) :
    ofText token? 0 (a ++ b) = a.map .plain ++ ofText token? 0 b := by
  induction a with
  | nil => rfl
  | cons c a ih =>
    have hnone := hplain (c :: a) (List.suffix_refl _) (List.cons_ne_nil c a)
    rw [List.cons_append] at hnone ⊢
    rw [ofText_of_none hnone, List.map_cons, List.cons_append, ih]
    exact fun rest hrest => hplain rest (hrest.trans (List.suffix_cons c a))

theorem ofText_eq_map_plain (hplain : ∀ rest, rest <:+ cs → rest ≠ [] → token? rest = none) :
    ofText token? 0 cs = cs.map .plain := by
  have happend := ofText_append fun rest hrest hne =>
    (congrArg token? (List.append_nil rest)).trans (hplain rest hrest hne)
  rw [List.append_nil] at happend
  exact happend.trans (List.append_nil _)

theorem text_map_plain (cs : List Char) : text (cs.map .plain) = cs := by
  unfold text
  rw [List.filterMap_map]
  exact List.filterMap_some

theorem arguments_map_plain (cs : List Char) : arguments (cs.map .plain) = [] := by
  unfold arguments
  rw [List.filterMap_map]
  exact List.filterMap_eq_nil_iff.2 fun _ _ => rfl

theorem text_append (p q : List Piece) : text (p ++ q) = text p ++ text q :=
  List.filterMap_append

theorem arguments_append (p q : List Piece) : arguments (p ++ q) = arguments p ++ arguments q :=
  List.filterMap_append

variable (token?) in
theorem text_ofText_sublist (skip : Nat) (cs : List Char) :
    (text (ofText token? skip cs)).Sublist cs := by
  fun_induction ofText token? skip cs with
  | case1 => exact .refl _
  | case2 c cs skip ih => exact ih.cons c
  | case3 c cs argument length _ ih => exact ih.cons c
  | case4 c cs _ ih => exact ih.cons_cons c

variable (token?) in
theorem length_text_le (least : Nat)
    (hleast : ∀ text argument length, token? text = some (argument, length) →
      least ≤ length + 1 ∧ length + 1 ≤ text.length)
    (hsome : ∃ rest, rest <:+ cs ∧ token? rest ≠ none) :
    (text (ofText token? 0 cs)).length + least ≤ cs.length := by
  induction cs with
  | nil =>
    obtain ⟨rest, hrest, htoken⟩ := hsome
    obtain ⟨⟨argument, length⟩, hsome⟩ := Option.ne_none_iff_exists'.1 htoken
    have hlength := (hleast _ _ _ hsome).2
    rw [List.eq_nil_of_suffix_nil hrest, List.length_nil] at hlength
    omega
  | cons c cs ih =>
    cases htoken : token? (c :: cs) with
    | some found =>
      obtain ⟨argument, length⟩ := found
      obtain ⟨hlower, hupper⟩ := hleast _ _ _ htoken
      have hrest := (text_ofText_sublist token? 0 (cs.drop length)).length_le
      rw [List.length_drop] at hrest
      rw [ofText_of_some htoken]
      rw [List.length_cons] at hupper ⊢
      show (text (ofText token? 0 (cs.drop length))).length + least ≤ _
      omega
    | none =>
      have hlater : ∃ rest, rest <:+ cs ∧ token? rest ≠ none := by
        obtain ⟨rest, hrest, hfound⟩ := hsome
        rcases List.suffix_cons_iff.1 hrest with rfl | hrest
        · exact absurd htoken hfound
        · exact ⟨rest, hrest, hfound⟩
      have hrest := ih hlater
      rw [ofText_of_none htoken, List.length_cons]
      show (text (ofText token? 0 cs)).length + 1 + least ≤ _
      omega

end Piece

namespace WaitToken

/-! ## Tags -/

def tag (argument : List Char) : List Char := tagStart ++ argument ++ ['>']

variable {a t cs rest line argument : List Char} {length : Nat}

theorem length_tag (argument : List Char) : (tag argument).length = argument.length + 7 := by
  unfold tag
  rw [List.length_append, List.length_append, List.length_singleton]
  show 6 + argument.length + 1 = _
  omega

theorem tag_append (argument rest : List Char) :
    tag argument ++ rest = tagStart ++ (argument ++ '>' :: rest) := by
  unfold tag
  rw [List.append_assoc, List.append_assoc, List.singleton_append]

theorem tag?_eq_some_iff :
    tag? cs = some (argument, length) ↔
      length = 6 + argument.length ∧ '>' ∉ argument ∧ ∃ rest, cs = tag argument ++ rest := by
  have hlength : tagStart.length = 6 := rfl
  constructor
  · intro htag
    unfold tag? at htag
    cases hafter : Text.afterPrefix? tagStart cs with
    | none => rw [hafter] at htag; cases htag
    | some text =>
      rw [hafter] at htag
      simp only at htag
      cases hdrop : text.dropWhile (· ≠ '>') with
      | nil => rw [hdrop] at htag; cases htag
      | cons c rest =>
        rw [hdrop] at htag
        cases htag
        have hhead := List.head?_dropWhile_not (· ≠ '>') text
        rw [hdrop] at hhead
        have hc : c = '>' := by simpa using hhead
        refine ⟨rfl, fun hmem => ?_, rest, ?_⟩
        · simpa using List.mem_takeWhile_imp hmem
        · rw [hc] at hdrop
          rw [tag_append, Text.afterPrefix?_eq_some_iff.1 hafter, ← hdrop,
            List.takeWhile_append_dropWhile]
  · rintro ⟨rfl, hnot, rest, rfl⟩
    have hplain : ∀ c ∈ argument, decide (c ≠ '>') = true := by
      intro c hc
      rw [decide_eq_true_iff]
      rintro rfl
      exact hnot hc
    have htake : (argument ++ '>' :: rest).takeWhile (· ≠ '>') = argument := by
      rw [List.takeWhile_append_of_pos hplain]
      simp
    have hdrop : (argument ++ '>' :: rest).dropWhile (· ≠ '>') = '>' :: rest := by
      rw [List.dropWhile_append_of_pos hplain]
      simp
    unfold tag?
    rw [tag_append, Text.afterPrefix?_eq_some_iff.2 rfl]
    simp only [htake, hdrop, hlength]

theorem tag?_ne_none (hend : '>' ∈ rest) : tag? (tagStart ++ rest) ≠ none := by
  obtain ⟨argument, after, hrest, hnot⟩ := List.eq_append_cons_of_mem hend
  intro hnone
  have hsome : tag? (tagStart ++ rest) = some (argument, 6 + argument.length) :=
    tag?_eq_some_iff.2 ⟨rfl, hnot, after, by rw [tag_append, hrest]⟩
  rw [hnone] at hsome
  cases hsome

/-- A text in front of a character that is not in a word begins with that word on its own. -/
theorem prefix_of_prefix_append {start text : List Char} {c : Char} (rest : List Char)
    (hc : c ∉ start) (hstart : start <+: text ++ c :: rest) : start <+: text := by
  rcases Nat.lt_or_ge text.length start.length with hgt | hle
  · have hmid : text ++ [c] <+: start := by
      apply List.prefix_of_prefix_length_le _ hstart
      · rw [List.length_append, List.length_singleton]
        omega
      · exact ⟨rest, by rw [List.append_assoc, List.singleton_append]⟩
    exact absurd (hmid.subset (List.mem_append_right _ (List.mem_singleton_self c))) hc
  · exact List.prefix_of_prefix_length_le hstart (List.prefix_append _ _) hle

theorem tags_tag_append (hargument : '>' ∉ argument) (rest : List Char) :
    tags (tag argument ++ rest) = .token argument :: tags rest := by
  have hsome : tag? (tag argument ++ rest) = some (argument, 6 + argument.length) :=
    tag?_eq_some_iff.2 ⟨rfl, hargument, rest, rfl⟩
  have hdrop : (tag argument ++ rest).drop (6 + argument.length + 1) = rest := by
    apply List.drop_left'
    rw [length_tag]
    omega
  unfold tags
  cases hcs : tag argument ++ rest with
  | nil =>
    rw [hcs] at hsome
    cases hsome
  | cons c cs =>
    rw [hcs] at hsome hdrop
    rw [Piece.ofText_of_some hsome]
    exact congrArg (fun cs => .token argument :: Piece.ofText tag? 0 cs) hdrop

theorem tags_tag (hargument : '>' ∉ argument) : tags (tag argument) = [.token argument] := by
  have happend := tags_tag_append hargument []
  rwa [List.append_nil] at happend

/-- Behind a text without tags, the tag that is written is the only one. -/
theorem tags_append_tag (ht : ¬tagStart <:+: t) (hargument : '>' ∉ argument) :
    tags (t ++ ' ' :: tag argument) = (t ++ [' ']).map .plain ++ [.token argument] := by
  have hblank : ' ' ∉ tagStart := by decide
  have hnone : ∀ rest, rest <:+ t ++ [' '] → rest ≠ [] → tag? (rest ++ tag argument) = none := by
    intro rest hrest hne
    obtain ⟨text, rfl, htext⟩ := (List.suffix_concat_iff.1 hrest).resolve_left hne
    cases htag : tag? (text ++ [' '] ++ tag argument) with
    | none => rfl
    | some found =>
      obtain ⟨-, -, after, hsplit⟩ := tag?_eq_some_iff.1 htag
      have hstart : tagStart <+: text := by
        apply prefix_of_prefix_append (tag argument) hblank
        rw [← List.singleton_append, ← List.append_assoc, hsplit, tag_append]
        exact List.prefix_append _ _
      exact absurd (hstart.isInfix.trans htext.isInfix) ht
  rw [tags, ← List.singleton_append, ← List.append_assoc, Piece.ofText_append hnone,
    ← tags, tags_tag hargument]

/-- A tag that reaches into the tag behind a text ends with it. -/
theorem eq_nil_of_tag_append_eq {before rest : List Char} (hend : '>' ∈ before)
    (hargument : '>' ∉ argument) (hsplit : tag argument = before ++ rest) : rest = [] := by
  cases List.eq_nil_or_concat' rest with
  | inl hnil => exact hnil
  | inr hconcat =>
    obtain ⟨rest, c, rfl⟩ := hconcat
    unfold tag at hsplit
    rw [← List.append_assoc] at hsplit
    have hmem : '>' ∈ tagStart ++ argument :=
      (List.append_inj' hsplit rfl).1 ▸ List.mem_append_left rest hend
    rcases List.mem_append.1 hmem with hstart | hmem
    · exact absurd hstart (by decide)
    · exact absurd hmem hargument

/-- Nothing is left behind a tag that reaches to the tag behind a text. -/
theorem text_tags_of_reaching {a later found : List Char} (hargument : '>' ∉ argument)
    (hfound : tag found = a ++ later) (hrest : tag argument = later ++ rest) :
    Piece.text (tags rest) = [] := by
  rcases List.eq_nil_or_concat' later with rfl | ⟨later, d, rfl⟩
  · rw [List.nil_append] at hrest
    rw [← hrest, tags_tag hargument]
    rfl
  · unfold tag at hfound
    rw [← List.append_assoc] at hfound
    have hd : '>' = d := (List.cons.inj (List.append_inj' hfound rfl).2).1
    have hmem : '>' ∈ later ++ [d] := hd ▸ List.mem_append_right _ List.mem_cons_self
    rw [eq_nil_of_tag_append_eq hmem hargument hrest]
    rfl

/-- In front of a tag, what the tags leave of a text is at most the text. It is less by the start of a
tag if the text has one: that start finds an end in the tag behind it, if not before. -/
theorem length_text_tags_le (hargument : '>' ∉ argument) (a : List Char) :
    (Piece.text (tags (a ++ tag argument))).length ≤ a.length ∧
      (tagStart <:+: a → (Piece.text (tags (a ++ tag argument))).length + 6 ≤ a.length) := by
  have hend : '>' ∈ tag argument := List.mem_append_right _ (List.mem_singleton_self '>')
  induction hn : a.length using Nat.strong_induction_on generalizing a with
  | _ n ih =>
    cases hfound : tag? (a ++ tag argument) with
    | some found =>
      -- The text begins with a tag, and what follows it is shorter or empty.
      obtain ⟨found, length⟩ := found
      obtain ⟨-, hnot, rest, hsplit⟩ := tag?_eq_some_iff.1 hfound
      rw [hsplit, tags_tag_append hnot]
      show (Piece.text (tags rest)).length ≤ n ∧ (_ → (Piece.text (tags rest)).length + 6 ≤ n)
      rcases List.append_eq_append_iff.1 hsplit with ⟨later, hlater, hrest⟩ | ⟨later, ha, hrest⟩
      · rw [text_tags_of_reaching hargument hlater hrest]
        refine ⟨Nat.zero_le n, fun hstart => ?_⟩
        have hsix : tagStart.length = 6 := rfl
        have hle := hstart.length_le
        rw [List.length_nil]
        omega
      · have hlength := congrArg List.length ha
        rw [List.length_append, length_tag] at hlength
        have hshorter := (ih later.length (by omega) later rfl).1
        rw [hrest]
        omega
    | none =>
      cases a with
      | nil =>
        rw [List.nil_append, tags_tag hargument]
        exact ⟨Nat.zero_le n, fun hstart => absurd (List.eq_nil_of_infix_nil hstart) (by decide)⟩
      | cons c a =>
        rw [List.length_cons] at hn
        have hrest := ih a.length (by omega) a rfl
        rw [List.cons_append] at hfound ⊢
        rw [tags, Piece.ofText_of_none hfound]
        show (Piece.text (tags (a ++ tag argument))).length + 1 ≤ n ∧
          (_ → (Piece.text (tags (a ++ tag argument))).length + 1 + 6 ≤ n)
        refine ⟨by omega, fun hstart => ?_⟩
        rcases List.infix_cons_iff.1 hstart with ⟨text, htext⟩ | hstart
        · refine absurd hfound ?_
          rw [← List.cons_append, ← htext, List.append_assoc]
          exact tag?_ne_none (List.mem_append_right text hend)
        · have hmore := hrest.2 hstart
          omega

/-! ## Words -/

/-- Whether a text begins with the word, blanks and an argument. -/
def BeginsWord (cs : List Char) : Prop :=
  ∃ blanks c after, cs = word ++ blanks ++ c :: after ∧ blanks ≠ [] ∧
    (∀ b ∈ blanks, Text.isBlank b = true) ∧ Text.isBlank c = false

/-- Whether the word stands in a text with blanks and an argument, at its start or after a blank. -/
def HasWord (line : List Char) : Prop :=
  ∃ before after, line = before ++ after ∧ BeginsWord after ∧
    ∀ b ∈ before.getLast?, Text.isBlank b = true

theorem word?_append (rest : List Char) :
    word? (word ++ rest) =
      if rest.takeWhile Text.isBlank = [] ∨
        (rest.dropWhile Text.isBlank).takeWhile (!Text.isBlank ·) = [] then none
      else some ((rest.dropWhile Text.isBlank).takeWhile (!Text.isBlank ·),
        5 + (rest.takeWhile Text.isBlank).length +
          ((rest.dropWhile Text.isBlank).takeWhile (!Text.isBlank ·)).length - 1) := by
  unfold word?
  rw [Text.afterPrefix?_eq_some_iff.2 rfl]
  rfl

/-- A word that is found: the blanks and the argument behind it are not empty. -/
theorem word?_eq_some_iff :
    word? cs = some (argument, length) ↔
      ∃ rest, cs = word ++ rest ∧ rest.takeWhile Text.isBlank ≠ [] ∧ argument ≠ [] ∧
        argument = (rest.dropWhile Text.isBlank).takeWhile (!Text.isBlank ·) ∧
        length = 5 + (rest.takeWhile Text.isBlank).length + argument.length - 1 := by
  constructor
  · intro hfound
    have hafter : ∃ rest, cs = word ++ rest := by
      unfold word? at hfound
      cases hafter : Text.afterPrefix? word cs with
      | none => rw [hafter] at hfound; cases hfound
      | some rest => exact ⟨rest, Text.afterPrefix?_eq_some_iff.1 hafter⟩
    obtain ⟨rest, rfl⟩ := hafter
    rw [word?_append] at hfound
    split at hfound
    · cases hfound
    · next hne =>
      obtain ⟨hblanks, hargument⟩ := not_or.1 hne
      obtain ⟨rfl, rfl⟩ := Prod.mk.inj (Option.some.inj hfound)
      exact ⟨rest, rfl, hblanks, hargument, rfl, rfl⟩
  · rintro ⟨rest, rfl, hblanks, hne, hargument, hlength⟩
    rw [word?_append, ← hargument, if_neg (not_or.2 ⟨hblanks, hne⟩), hlength]

theorem length_of_word? (hword : word? cs = some (argument, length)) :
    7 ≤ length + 1 ∧ length + 1 ≤ cs.length := by
  obtain ⟨rest, rfl, hblanks, hne, hargument, hlength⟩ := word?_eq_some_iff.1 hword
  have hrest := congrArg List.length
    (List.takeWhile_append_dropWhile (p := Text.isBlank) (l := rest))
  have htake := (List.takeWhile_prefix (l := rest.dropWhile Text.isBlank)
    (!Text.isBlank ·)).length_le
  have hblanks := List.length_pos_iff.2 hblanks
  have hne := List.length_pos_iff.2 hne
  have hword : word.length = 5 := rfl
  rw [← hargument] at htake
  rw [List.length_append] at hrest ⊢
  omega

theorem word?_ne_none_iff : word? cs ≠ none ↔ BeginsWord cs := by
  rw [Option.ne_none_iff_exists']
  constructor
  · rintro ⟨⟨argument, length⟩, hword⟩
    obtain ⟨rest, rfl, hblanks, hne, hargument, -⟩ := word?_eq_some_iff.1 hword
    cases hdrop : rest.dropWhile Text.isBlank with
    | nil =>
      rw [hdrop] at hargument
      exact absurd hargument hne
    | cons c after =>
      have hc := List.head?_dropWhile_not Text.isBlank rest
      rw [hdrop] at hc
      refine ⟨rest.takeWhile Text.isBlank, c, after, ?_, hblanks,
        fun b hb => List.mem_takeWhile_imp hb, by simpa using hc⟩
      rw [List.append_assoc, ← hdrop, List.takeWhile_append_dropWhile]
  · rintro ⟨blanks, c, after, rfl, hne, hblanks, hc⟩
    have hstop : ¬Text.isBlank c = true := by rw [hc]; exact Bool.false_ne_true
    have htake : (blanks ++ c :: after).takeWhile Text.isBlank = blanks := by
      rw [List.takeWhile_append_of_pos hblanks, List.takeWhile_cons_of_neg hstop, List.append_nil]
    have hdrop : (blanks ++ c :: after).dropWhile Text.isBlank = c :: after := by
      rw [List.dropWhile_append_of_pos hblanks, List.dropWhile_cons_of_neg hstop]
    have hargument : (c :: after).takeWhile (!Text.isBlank ·) ≠ [] := by
      rw [List.takeWhile_cons_of_pos (by rw [hc]; rfl)]
      exact List.cons_ne_nil _ _
    rw [List.append_assoc, word?_append, htake, hdrop, if_neg (not_or.2 ⟨hne, hargument⟩)]
    exact ⟨_, rfl⟩

instance (cs : List Char) : Decidable (BeginsWord cs) := decidable_of_iff _ word?_ne_none_iff

theorem blankWord?_ne_none_iff {c : Char} :
    blankWord? (c :: cs) ≠ none ↔ Text.isBlank c = true ∧ BeginsWord cs := by
  rw [← word?_ne_none_iff]
  simp only [blankWord?]
  by_cases hc : Text.isBlank c = true
  · rw [if_pos hc, ne_eq, Option.map_eq_none_iff]
    exact (and_iff_right hc).symm
  · rw [if_neg hc]
    exact iff_of_false (fun h => h rfl) fun h => hc h.1

theorem length_of_blankWord? (hword : blankWord? cs = some (argument, length)) :
    8 ≤ length + 1 ∧ length + 1 ≤ cs.length := by
  cases cs with
  | nil => cases hword
  | cons c cs =>
    simp only [blankWord?] at hword
    split at hword
    · obtain ⟨⟨found, length⟩, hfound, hpair⟩ := Option.map_eq_some_iff.1 hword
      obtain ⟨rfl, rfl⟩ := Prod.mk.inj hpair
      have hlength := length_of_word? hfound
      rw [List.length_cons]
      omega
    · cases hword

theorem hasWord_iff :
    HasWord line ↔ BeginsWord line ∨ ∃ rest, rest <:+ line ∧ blankWord? rest ≠ none := by
  constructor
  · rintro ⟨before, after, rfl, hafter, hblank⟩
    rcases List.eq_nil_or_concat' before with rfl | ⟨before, c, rfl⟩
    · exact .inl hafter
    · refine .inr ⟨c :: after, ⟨before, (List.append_cons before c after)⟩,
        blankWord?_ne_none_iff.2 ⟨hblank c ?_, hafter⟩⟩
      rw [List.getLast?_concat]
      rfl
  · rintro (hline | ⟨rest, ⟨before, rfl⟩, hrest⟩)
    · exact ⟨[], line, rfl, hline, fun b hb => by cases hb⟩
    · cases rest with
      | nil => exact absurd rfl hrest
      | cons c rest =>
        obtain ⟨hc, hrest⟩ := blankWord?_ne_none_iff.1 hrest
        refine ⟨before ++ [c], rest, List.append_cons before c rest, hrest, fun b hb => ?_⟩
        rw [List.getLast?_concat] at hb
        exact Option.some.inj hb ▸ hc

instance (line : List Char) : Decidable (HasWord line) :=
  decidable_of_iff (BeginsWord line ∨ ∃ rest ∈ line.tails, blankWord? rest ≠ none) <| by
    simp only [hasWord_iff, List.mem_tails]

theorem words_of_not_hasWord (hline : ¬HasWord line) : words line = line.map .plain := by
  rw [hasWord_iff, not_or] at hline
  obtain ⟨hstart, hlater⟩ := hline
  have hword : word? line = none := by
    by_contra hword
    exact hstart (word?_ne_none_iff.1 hword)
  have hplain : ∀ rest, rest <:+ line → rest ≠ [] → blankWord? rest = none := by
    intro rest hrest _
    by_contra hblank
    exact hlater ⟨rest, hrest, hblank⟩
  unfold words
  rw [hword]
  exact Piece.ofText_eq_map_plain hplain

theorem text_words_sublist (line : List Char) : (Piece.text (words line)).Sublist line := by
  unfold words
  split
  · exact (Piece.text_ofText_sublist _ _ _).trans (List.tail_sublist line)
  · exact Piece.text_ofText_sublist _ 0 line

theorem length_text_words_le (hline : HasWord line) :
    (Piece.text (words line)).length + 7 ≤ line.length := by
  unfold words
  cases hword : word? line with
  | some found =>
    obtain ⟨argument, length⟩ := found
    obtain ⟨hlower, hupper⟩ := length_of_word? hword
    have hrest := (Piece.text_ofText_sublist blankWord? 0 (line.tail.drop length)).length_le
    rw [List.length_drop, List.length_tail] at hrest
    show (Piece.text (Piece.ofText blankWord? length line.tail)).length + 7 ≤ _
    rw [Piece.ofText_skip]
    omega
  | none =>
    have hlater := (hasWord_iff.1 hline).resolve_left fun h => word?_ne_none_iff.2 h hword
    have hlength := Piece.length_text_le blankWord? 8 (fun _ _ _ => length_of_blankWord?) hlater
    show (Piece.text (Piece.ofText blankWord? 0 line)).length + 7 ≤ _
    omega

theorem BeginsWord.append (h : BeginsWord cs) (rest : List Char) : BeginsWord (cs ++ rest) := by
  obtain ⟨blanks, c, after, rfl, h⟩ := h
  exact ⟨blanks, c, after ++ rest, by rw [List.append_assoc, List.cons_append], h⟩

theorem HasWord.append (h : HasWord cs) (rest : List Char) : HasWord (cs ++ rest) := by
  obtain ⟨before, after, rfl, hafter, hblank⟩ := h
  exact ⟨before, after ++ rest, List.append_assoc _ _ _, hafter.append rest, hblank⟩

/-- A blank behind a line does not complete a word: an argument is missing. -/
theorem hasWord_of_concat_blank {b : Char} (hb : Text.isBlank b = true)
    (h : HasWord (line ++ [b])) : HasWord line := by
  obtain ⟨before, after, hsplit, ⟨blanks, c, rest, rfl, hblanks, hall, hc⟩, hblank⟩ := h
  rcases List.eq_nil_or_concat' rest with rfl | ⟨rest, d, rfl⟩
  · rw [← List.append_assoc] at hsplit
    obtain rfl : b = c := (List.cons.inj (List.append_inj' hsplit rfl).2).1
    rw [hb] at hc
    cases hc
  · rw [← List.cons_append, ← List.append_assoc, ← List.append_assoc] at hsplit
    have hline := (List.append_inj' hsplit rfl).1
    rw [List.append_assoc] at hline
    exact ⟨before, _, hline, ⟨blanks, c, rest, rfl, hblanks, hall, hc⟩,
      hblank⟩

/-! ## What is left of a line with a tag behind it -/

theorem remove_sublist (line : List Char) : (remove line).Sublist line :=
  calc (remove line).Sublist (Piece.text (words (Piece.text (tags line)))) := Text.trim_sublist _
    List.Sublist _ (Piece.text (tags line)) := text_words_sublist _
    List.Sublist _ line := Piece.text_ofText_sublist tag? 0 line

/-- A trimmed text without tokens is what is left if a tag is put behind it. -/
theorem remove_append_tag (htrim : Text.trim t = t) (ht : ¬tagStart <:+: t) (hword : ¬HasWord t)
    (hargument : '>' ∉ argument) : remove (t ++ ' ' :: tag argument) = t := by
  have hblank : Text.isBlank ' ' = true := rfl
  have htags : Piece.text (tags (t ++ ' ' :: tag argument)) = t ++ [' '] := by
    rw [tags_append_tag ht hargument, Piece.text_append, Piece.text_map_plain]
    exact List.append_nil _
  unfold remove
  rw [htags, words_of_not_hasWord fun h => hword (hasWord_of_concat_blank hblank h),
    Piece.text_map_plain, Text.trim_concat_blank htrim hblank]

/-- What is left of a text with tokens and a tag behind it is shorter than that text. -/
theorem length_remove_append_tag_lt (hargument : '>' ∉ argument)
    (ht : tagStart <:+: t ∨ HasWord t) :
    (remove (t ++ ' ' :: tag argument)).length < t.length := by
  have hsplit : t ++ ' ' :: tag argument = t ++ [' '] ++ tag argument := by
    rw [List.append_assoc, List.singleton_append]
  have hle : (remove (t ++ ' ' :: tag argument)).length ≤
      (Piece.text (words (Piece.text (tags (t ++ ' ' :: tag argument))))).length :=
    Text.length_trim_le _
  by_cases htag : tagStart <:+: t
  · have htags := (length_text_tags_le hargument (t ++ [' '])).2
      (htag.trans (List.prefix_append t [' ']).isInfix)
    have hwords := (text_words_sublist (Piece.text (tags (t ++ ' ' :: tag argument)))).length_le
    rw [← hsplit, List.length_append, List.length_singleton] at htags
    omega
  · have hwords := length_text_words_le ((ht.resolve_left htag).append [' '])
    rw [tags_append_tag htag hargument, Piece.text_append, Piece.text_map_plain] at hle
    change _ ≤ (Piece.text (words (t ++ [' '] ++ []))).length at hle
    rw [List.append_nil] at hle
    rw [List.length_append, List.length_singleton] at hwords
    omega

theorem remove_tag (hargument : '>' ∉ argument) : remove (tag argument) = [] := by
  unfold remove
  rw [tags_tag hargument]
  rfl

/-- A tag behind a text is the last one, so its argument is the wait. -/
theorem getLast?_arguments_tags (ht : ¬tagStart <:+: t) (hargument : '>' ∉ argument) :
    (Piece.arguments (tags (t ++ ' ' :: tag argument))).getLast? = some argument := by
  rw [tags_append_tag ht hargument, Piece.arguments_append, Piece.arguments_map_plain]
  rfl

end WaitToken

end Choreo
