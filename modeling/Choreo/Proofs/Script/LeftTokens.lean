import Choreo.Proofs.Script.WaitToken

/-!
# Tokens that are left

When the tags of a line go, what stood before and behind them comes together, and that may be a tag
again. Words leave a blank behind them or the end of the line, so nothing comes of what stood around
them. Hence no word is left of a line, and a tag is left if and only if tags stood inside of its start
and no word takes what they left.
-/

namespace Choreo

namespace Piece

variable {token? : List Char → Option (List Char × Nat)} {cs start : List Char} {p q : List Piece}

/-- The text behind some of its pieces is what the others come from. -/
theorem exists_of_ofText_eq_append (h : ofText token? 0 cs = p ++ q) :
    ∃ a b, cs = a ++ b ∧ ofText token? 0 b = q := by
  induction p generalizing cs with
  | nil => exact ⟨[], cs, rfl, h⟩
  | cons piece p ih =>
    cases cs with
    | nil => cases h
    | cons c cs =>
      cases htoken : token? (c :: cs) with
      | none =>
        rw [ofText_of_none htoken] at h
        obtain ⟨a, b, rfl, hb⟩ := ih (List.cons.inj h).2
        exact ⟨c :: a, b, rfl, hb⟩
      | some found =>
        obtain ⟨argument, length⟩ := found
        rw [ofText_of_some htoken] at h
        obtain ⟨a, b, hab, hb⟩ := ih (List.cons.inj h).2
        refine ⟨c :: (cs.take length ++ a), b, ?_, hb⟩
        rw [List.cons_append, List.append_assoc, ← hab, List.take_append_drop]

theorem exists_of_ofText_eq_plain (h : ofText token? 0 cs = start.map .plain ++ q) :
    ∃ rest, cs = start ++ rest ∧ ofText token? 0 rest = q := by
  induction start generalizing cs with
  | nil => exact ⟨cs, rfl, h⟩
  | cons s start ih =>
    cases cs with
    | nil => cases h
    | cons c cs =>
      cases htoken : token? (c :: cs) with
      | none =>
        rw [ofText_of_none htoken] at h
        obtain ⟨hc, hrest⟩ := List.cons.inj h
        obtain ⟨rest, rfl, hq⟩ := ih hrest
        exact ⟨rest, by rw [Piece.plain.inj hc, List.cons_append], hq⟩
      | some found =>
        rw [ofText_of_some htoken] at h
        cases h

theorem eq_map_plain_of_arguments_eq_nil (h : arguments p = []) : p = (text p).map .plain := by
  induction p with
  | nil => rfl
  | cons piece p ih =>
    cases piece with
    | plain c => exact congrArg (.plain c :: ·) (ih h)
    | token argument => cases h

theorem text_eq_append_iff {a b : List Char} :
    text p = a ++ b ↔ ∃ p₁ p₂, p = p₁ ++ p₂ ∧ text p₁ = a ∧ text p₂ = b :=
  List.filterMap_eq_append_iff

/-- The pieces of a text that begins with some character: tokens may stand in front of it. -/
theorem exists_of_text_eq_cons {c : Char} {cs : List Char} (h : text p = c :: cs) :
    ∃ p₁ p₂, p = p₁ ++ .plain c :: p₂ ∧ text p₁ = [] ∧ text p₂ = cs := by
  obtain ⟨p₁, piece, p₂, rfl, hnone, hpiece, hcs⟩ := List.filterMap_eq_cons_iff.1 h
  cases piece with
  | plain d =>
    obtain rfl : d = c := Option.some.inj hpiece
    exact ⟨p₁, p₂, rfl, List.filterMap_eq_nil_iff.2 hnone, hcs⟩
  | token argument => cases hpiece

end Piece

namespace WaitToken

variable {cs rest line argument : List Char} {length : Nat}

/-! ## Tags -/

def HasTag (cs : List Char) : Prop := ∃ argument, '>' ∉ argument ∧ tag argument <:+: cs

theorem hasTag_iff : HasTag cs ↔ ∃ before rest, cs = before ++ (tagStart ++ rest) ∧ '>' ∈ rest := by
  constructor
  · rintro ⟨argument, -, before, after, rfl⟩
    refine ⟨before, argument ++ '>' :: after, ?_, by simp⟩
    rw [List.append_assoc, tag_append]
  · rintro ⟨before, rest, rfl, hend⟩
    obtain ⟨argument, after, rfl, hnot⟩ := List.eq_append_cons_of_mem hend
    exact ⟨argument, hnot, before, after, by rw [List.append_assoc, tag_append]⟩

theorem hasTag_iff_tag? : HasTag cs ↔ ∃ rest, rest <:+ cs ∧ tag? rest ≠ none := by
  constructor
  · intro h
    obtain ⟨before, rest, rfl, hend⟩ := hasTag_iff.1 h
    exact ⟨_, List.suffix_append before _, tag?_ne_none hend⟩
  · rintro ⟨rest, ⟨before, rfl⟩, hrest⟩
    obtain ⟨⟨argument, length⟩, hsome⟩ := Option.ne_none_iff_exists'.1 hrest
    obtain ⟨-, hnot, after, rfl⟩ := tag?_eq_some_iff.1 hsome
    exact ⟨argument, hnot, before, after, List.append_assoc _ _ _⟩

instance (cs : List Char) : Decidable (HasTag cs) :=
  decidable_of_iff (∃ rest ∈ cs.tails, tag? rest ≠ none) <| by
    simp only [hasTag_iff_tag?, List.mem_tails]

theorem tags_of_not_hasTag (h : ¬HasTag cs) : tags cs = cs.map .plain := by
  refine Piece.ofText_eq_map_plain fun rest hrest _ => ?_
  by_contra htag
  exact h (hasTag_iff_tag?.2 ⟨rest, hrest, htag⟩)

theorem length_text_tags_lt (h : HasTag cs) : (Piece.text (tags cs)).length < cs.length := by
  refine Piece.length_text_le tag? 1 (fun text argument length htag => ?_) (hasTag_iff_tag?.1 h)
  obtain ⟨rfl, -, rest, rfl⟩ := tag?_eq_some_iff.1 htag
  rw [List.length_append, length_tag]
  omega

theorem hasTag_trim_iff : HasTag (Text.trim cs) ↔ HasTag cs := by
  have hends (argument : List Char) : tag argument <:+: Text.trim cs ↔ tag argument <:+: cs :=
    Text.infix_trim_iff rfl (List.getLast?_concat) (by decide) (by decide)
  simp only [HasTag, hends]

/-- The start of a tag that is found again in what the tags leave was not there before. -/
theorem not_tags_eq {p r : List Piece} (hend : '>' ∈ Piece.text r) :
    tags line ≠ p ++ (tagStart.map .plain ++ r) := by
  intro htags
  obtain ⟨before, cs, rfl, hcs⟩ := Piece.exists_of_ofText_eq_append htags
  obtain ⟨rest, rfl, hrest⟩ := Piece.exists_of_ofText_eq_plain hcs
  have hmem : '>' ∈ rest := by
    rw [← hrest] at hend
    exact (Piece.text_ofText_sublist tag? 0 rest).subset hend
  obtain ⟨⟨argument, length⟩, htag⟩ := Option.ne_none_iff_exists'.1 (tag?_ne_none hmem)
  have htoken : Piece.ofText tag? 0 (tagStart ++ rest) = .token argument :: _ :=
    Piece.ofText_of_some htag
  rw [htoken] at hcs
  cases hcs

/-! ## Words -/

/-- Whether a word may end in front of a text. -/
def EndsWord (cs : List Char) : Prop := ∀ c, cs.head? = some c → Text.isBlank c = true

/-- What is left of a text when the words behind a blank go. -/
def unworded (cs : List Char) : List Char := Piece.text (Piece.ofText blankWord? 0 cs)

theorem EndsWord.of_append {a b : List Char} (h : EndsWord (a ++ b)) : EndsWord a := by
  intro c hc
  obtain ⟨rest, rfl⟩ := List.head?_eq_some_iff.1 hc
  exact h c rfl

theorem unworded_of_none {c : Char} (hword : blankWord? (c :: cs) = none) :
    unworded (c :: cs) = c :: unworded cs := by
  rw [unworded, Piece.ofText_of_none hword]
  rfl

theorem word?_of_endsWord {blanks after : List Char}
    (hblanks : blanks ≠ [] ∧ ∀ b ∈ blanks, Text.isBlank b = true)
    (hargument : argument ≠ [] ∧ ∀ b ∈ argument, Text.isBlank b = false) (hafter : EndsWord after) :
    word? (word ++ (blanks ++ (argument ++ after))) =
      some (argument, 5 + blanks.length + argument.length - 1) := by
  have hplain : ∀ b ∈ argument, (!Text.isBlank b) = true := fun b hb => by
    rw [hargument.2 b hb, Bool.not_false]
  have hstop : (argument ++ after).takeWhile Text.isBlank = [] ∧
      (argument ++ after).dropWhile Text.isBlank = argument ++ after := by
    obtain ⟨d, argument, rfl⟩ := List.exists_cons_of_ne_nil hargument.1
    have hd := hargument.2 d List.mem_cons_self
    exact ⟨List.takeWhile_cons_of_neg (by rw [hd]; decide),
      List.dropWhile_cons_of_neg (by rw [hd]; decide)⟩
  have hend : after.takeWhile (!Text.isBlank ·) = [] := by
    cases after with
    | nil => rfl
    | cons d after => exact List.takeWhile_cons_of_neg (by rw [hafter d rfl]; decide)
  rw [word?_append, List.takeWhile_append_of_pos hblanks.2, List.dropWhile_append_of_pos hblanks.2,
    hstop.1, hstop.2, List.takeWhile_append_of_pos hplain, hend, List.append_nil, List.append_nil,
    if_neg (not_or.2 ⟨hblanks.1, hargument.1⟩)]

/-- A word in full, with the blank in front of it and what may follow it. -/
theorem blankWord?_eq_some_iff {c : Char} :
    blankWord? (c :: cs) = some (argument, length) ↔
      ∃ blanks after, cs = word ++ (blanks ++ (argument ++ after)) ∧ Text.isBlank c = true ∧
        (blanks ≠ [] ∧ ∀ b ∈ blanks, Text.isBlank b = true) ∧
        (argument ≠ [] ∧ ∀ b ∈ argument, Text.isBlank b = false) ∧ EndsWord after ∧
        length = (word ++ (blanks ++ argument)).length := by
  have hfive : word.length = 5 := rfl
  constructor
  · intro hword
    simp only [blankWord?] at hword
    split at hword
    · next hc =>
      obtain ⟨⟨found, length'⟩, hfound, hpair⟩ := Option.map_eq_some_iff.1 hword
      obtain ⟨rfl, rfl⟩ := Prod.mk.inj hpair
      obtain ⟨rest, rfl, hblanks, hne, hargument, hlength⟩ := word?_eq_some_iff.1 hfound
      refine ⟨rest.takeWhile Text.isBlank,
        (rest.dropWhile Text.isBlank).dropWhile (!Text.isBlank ·), ?_, hc,
        ⟨hblanks, fun b hb => List.mem_takeWhile_imp hb⟩, ⟨hne, fun b hb => ?_⟩, fun d hd => ?_, ?_⟩
      · rw [hargument, List.takeWhile_append_dropWhile, List.takeWhile_append_dropWhile]
      · rw [hargument] at hb
        simpa using List.mem_takeWhile_imp hb
      · have hnot := List.head?_dropWhile_not (!Text.isBlank ·) (rest.dropWhile Text.isBlank)
        rw [hd] at hnot
        simpa using hnot
      · have hpos := List.length_pos_iff.2 hne
        simp only [List.length_append]
        omega
    · cases hword
  · rintro ⟨blanks, after, rfl, hc, hblanks, hargument, hafter, rfl⟩
    have hpos := List.length_pos_iff.2 hargument.1
    rw [blankWord?, if_pos hc, word?_of_endsWord hblanks hargument hafter, Option.map_some,
      List.length_append, List.length_append]
    refine congrArg some (Prod.ext rfl ?_)
    show 5 + blanks.length + argument.length - 1 + 1 = _
    omega

/-- Whether a text is a word with the blank in front of it: it is taken out as a token with its argument
wherever a word may end. -/
def IsWord (argument text : List Char) : Prop :=
  ∀ after, EndsWord after → Piece.ofText blankWord? 0 (text ++ after) =
    .token argument :: Piece.ofText blankWord? 0 after

theorem IsWord.unworded {text after : List Char} (h : IsWord argument text)
    (hafter : EndsWord after) : unworded (text ++ after) = unworded after := by
  rw [WaitToken.unworded, h after hafter]
  rfl

theorem exists_isWord {c : Char} (hword : blankWord? (c :: cs) = some (argument, length)) :
    ∃ taken after, cs = taken ++ after ∧ Text.isBlank c = true ∧ IsWord argument (c :: taken) ∧
      EndsWord after := by
  obtain ⟨blanks, after, rfl, hc, hblanks, hargument, hafter, rfl⟩ := blankWord?_eq_some_iff.1 hword
  refine ⟨word ++ (blanks ++ argument), after, by simp only [List.append_assoc], hc,
    fun after' hafter' => ?_, hafter⟩
  have hsame := blankWord?_eq_some_iff.2
    ⟨blanks, after', rfl, hc, hblanks, hargument, hafter', rfl⟩
  rw [← List.append_assoc blanks, ← List.append_assoc] at hsame
  rw [List.cons_append, Piece.ofText_of_some hsame, List.drop_left]

/-- A text is empty, or begins with a character that is left, or with a word. -/
theorem text_induction {motive : List Char → Prop} (nil : motive [])
    (plain : ∀ c cs, blankWord? (c :: cs) = none → motive cs → motive (c :: cs))
    (taken : ∀ c taken argument after, Text.isBlank c = true → IsWord argument (c :: taken) →
      EndsWord after → motive after → motive (c :: taken ++ after)) (cs : List Char) : motive cs := by
  induction hn : cs.length using Nat.strong_induction_on generalizing cs with
  | _ n ih =>
    cases cs with
    | nil => exact nil
    | cons c cs =>
      rw [List.length_cons] at hn
      cases hword : blankWord? (c :: cs) with
      | none => exact plain c cs hword (ih cs.length (by omega) cs rfl)
      | some found =>
        obtain ⟨argument, length⟩ := found
        obtain ⟨text, after, rfl, hc, htext, hafter⟩ := exists_isWord hword
        rw [List.length_append] at hn
        exact taken c text argument after hc htext hafter (ih after.length (by omega) after rfl)

theorem EndsWord.unworded (h : EndsWord cs) : EndsWord (unworded cs) := by
  induction cs using text_induction with
  | nil => exact h
  | plain c cs hword _ =>
    rw [unworded_of_none hword]
    exact fun d hd => h d hd
  | taken c text argument after hc htext hafter ih =>
    rw [htext.unworded hafter]
    exact ih hafter

/-- Characters that are not blank were next to each other before, and no word took one of them. -/
theorem exists_of_unworded_eq_append {start ys : List Char}
    (hstart : start.all (!Text.isBlank ·) = true) (h : unworded cs = start ++ ys) :
    ∃ rest, cs = start ++ rest ∧ unworded rest = ys ∧ Piece.ofText blankWord? 0 cs =
      start.map .plain ++ Piece.ofText blankWord? 0 rest := by
  induction start generalizing cs with
  | nil => exact ⟨cs, rfl, h, rfl⟩
  | cons s start ih =>
    rw [List.all_cons, Bool.and_eq_true, Bool.not_eq_true'] at hstart
    cases cs using text_induction with
    | nil => cases h
    | plain c cs hword _ =>
      rw [unworded_of_none hword] at h
      obtain ⟨rfl, hrest⟩ := List.cons.inj h
      obtain ⟨rest, rfl, hys, hpieces⟩ := ih hstart.2 hrest
      exact ⟨rest, rfl, hys, by rw [Piece.ofText_of_none hword, hpieces]; rfl⟩
    | taken c text argument after hc htext hafter _ =>
      -- What follows a word begins with a blank, before and after the words behind it have gone.
      rw [htext.unworded hafter] at h
      have hblank := hafter.unworded s (by rw [h]; rfl)
      rw [hstart.1] at hblank
      cases hblank

/-- Wherever what is left is cut, the text can be cut, and the two parts lose their words on their
own. -/
theorem exists_of_unworded_eq {xs ys : List Char} (h : unworded cs = xs ++ ys) :
    ∃ a b, cs = a ++ b ∧ unworded a = xs ∧ unworded b = ys ∧
      Piece.ofText blankWord? 0 cs =
        Piece.ofText blankWord? 0 a ++ Piece.ofText blankWord? 0 b := by
  induction cs using text_induction generalizing xs with
  | nil =>
    obtain ⟨rfl, rfl⟩ := List.append_eq_nil_iff.1 h.symm
    exact ⟨[], [], rfl, rfl, rfl, rfl⟩
  | plain c cs hword ih =>
    cases xs with
    | nil => exact ⟨[], c :: cs, rfl, rfl, h, rfl⟩
    | cons x xs =>
      rw [unworded_of_none hword] at h
      obtain ⟨rfl, hrest⟩ := List.cons.inj h
      obtain ⟨a, b, rfl, hxs, hys, hpieces⟩ := ih hrest
      have hnone : blankWord? (c :: a) = none := by
        by_contra hsome
        obtain ⟨hc, hbegins⟩ := blankWord?_ne_none_iff.1 hsome
        exact blankWord?_ne_none_iff.2 ⟨hc, hbegins.append b⟩ hword
      refine ⟨c :: a, b, rfl, ?_, hys, ?_⟩
      · rw [unworded_of_none hnone, hxs]
      · rw [Piece.ofText_of_none hword, Piece.ofText_of_none hnone, hpieces, List.cons_append]
  | taken c text argument after hc htext hafter ih =>
    rw [htext.unworded hafter] at h
    obtain ⟨a, b, rfl, hxs, hys, hpieces⟩ := ih h
    refine ⟨c :: text ++ a, b, ?_, ?_, hys, ?_⟩
    · rw [List.append_assoc]
    · rw [htext.unworded hafter.of_append, hxs]
    · rw [htext _ hafter, htext a hafter.of_append, hpieces, List.cons_append]

/-- What is left begins with a blank only if the text does: words have one in front. -/
theorem isBlank_head?_of_unworded {b : Char} (hb : Text.isBlank b = true)
    (h : (unworded cs).head? = some b) : ∃ d, cs.head? = some d ∧ Text.isBlank d = true := by
  cases cs using text_induction with
  | nil => cases h
  | plain c cs hword _ =>
    rw [unworded_of_none hword] at h
    exact ⟨c, rfl, Option.some.inj h ▸ hb⟩
  | taken c text argument after hc _ _ _ => exact ⟨c, rfl, hc⟩

theorem unworded_sublist (cs : List Char) : (unworded cs).Sublist cs :=
  Piece.text_ofText_sublist blankWord? 0 cs

theorem BeginsWord.of_unworded (h : BeginsWord (unworded cs)) : BeginsWord cs := by
  obtain ⟨blanks, c, after, hsplit, hne, hblanks, hc⟩ := h
  rw [List.append_assoc] at hsplit
  obtain ⟨rest, rfl, hrest, -⟩ := exists_of_unworded_eq_append (by decide) hsplit
  obtain ⟨b, blanks, rfl⟩ := List.exists_cons_of_ne_nil hne
  obtain ⟨d, hhead, hd⟩ :=
    isBlank_head?_of_unworded (hblanks b List.mem_cons_self) (by rw [hrest, List.cons_append]; rfl)
  obtain ⟨rest, rfl⟩ := List.head?_eq_some_iff.1 hhead
  have hmem : c ∈ d :: rest := by
    refine (unworded_sublist (d :: rest)).subset ?_
    rw [hrest]
    exact List.mem_append_right _ List.mem_cons_self
  cases hdrop : (d :: rest).dropWhile Text.isBlank with
  | nil =>
    rw [List.dropWhile_eq_nil_iff.1 hdrop c hmem] at hc
    cases hc
  | cons e after =>
    have he := List.head?_dropWhile_not Text.isBlank (d :: rest)
    rw [hdrop] at he
    refine ⟨(d :: rest).takeWhile Text.isBlank, e, after, ?_, ?_,
      fun b hb => List.mem_takeWhile_imp hb, by simpa using he⟩
    · rw [List.append_assoc, ← hdrop, List.takeWhile_append_dropWhile]
    · rw [List.takeWhile_cons_of_pos hd]
      exact List.cons_ne_nil _ _

theorem blankWord?_of_suffix_unworded (h : rest <:+ unworded cs) : blankWord? rest = none := by
  induction cs using text_induction with
  | nil =>
    rw [List.eq_nil_of_suffix_nil h]
    rfl
  | plain c cs hword ih =>
    rw [unworded_of_none hword] at h
    rcases List.suffix_cons_iff.1 h with rfl | h
    · by_contra hsome
      obtain ⟨hc, hbegins⟩ := blankWord?_ne_none_iff.1 hsome
      exact blankWord?_ne_none_iff.2 ⟨hc, hbegins.of_unworded⟩ hword
    · exact ih h
  | taken c text argument after hc htext hafter ih =>
    rw [htext.unworded hafter] at h
    exact ih h

/-- At the start of a line a word is found as behind a blank. -/
theorem ofText_blank_cons (line : List Char) :
    Piece.ofText blankWord? 0 (' ' :: line) =
      if BeginsWord line then words line else .plain ' ' :: words line := by
  have hblank : blankWord? (' ' :: line) =
      (word? line).map fun found => (found.1, found.2 + 1) := rfl
  unfold words
  cases hword : word? line with
  | none =>
    have hnot : ¬BeginsWord line := fun h => word?_ne_none_iff.2 h hword
    rw [hword, Option.map_none] at hblank
    rw [if_neg hnot, Piece.ofText_of_none hblank]
  | some found =>
    obtain ⟨argument, length⟩ := found
    have hbegins : BeginsWord line := word?_ne_none_iff.1 (hword ▸ Option.some_ne_none _)
    rw [hword, Option.map_some] at hblank
    rw [if_pos hbegins, Piece.ofText_of_some hblank, ← List.drop_tail, ← Piece.ofText_skip]

theorem remove_eq (line : List Char) :
    remove line = Text.trim (unworded (' ' :: Piece.text (tags line))) := by
  unfold remove unworded
  rw [ofText_blank_cons]
  split
  · rfl
  · rfl

theorem not_hasWord_remove (line : List Char) : ¬HasWord (remove line) := by
  rw [remove_eq]
  generalize Piece.text (tags line) = text
  rintro ⟨before, after, hsplit, hbegins, hblank⟩
  obtain ⟨blanks, blanks', hblanks, -, hleft⟩ := Text.exists_eq_append_trim (unworded (' ' :: text))
  rw [hsplit, ← List.append_assoc, List.append_assoc] at hleft
  rcases List.eq_nil_or_concat' (blanks ++ before) with hnil | ⟨front, c, hfront⟩
  · obtain ⟨_, _, _, rfl, -⟩ := hbegins
    have hstart : EndsWord (' ' :: text) := fun c hc => Option.some.inj hc ▸ rfl
    rw [hnil] at hleft
    exact absurd (hstart.unworded '/' (by rw [hleft]; rfl)) (by decide)
  · have hc : Text.isBlank c = true := by
      rcases List.eq_nil_or_concat' before with rfl | ⟨before, d, rfl⟩
      · rw [List.append_nil] at hfront
        exact hblanks c (hfront ▸ List.mem_append_right _ (List.mem_singleton_self c))
      · rw [← List.append_assoc] at hfront
        rw [← (List.cons.inj (List.append_inj' hfront rfl).2).1]
        exact hblank d (by rw [List.getLast?_concat]; rfl)
    rw [hfront, List.append_assoc, List.singleton_append] at hleft
    have hsuffix : c :: (after ++ blanks') <:+ unworded (' ' :: text) := ⟨front, hleft.symm⟩
    exact blankWord?_ne_none_iff.2 ⟨hc, hbegins.append blanks'⟩
      (blankWord?_of_suffix_unworded hsuffix)

/-! ## What is left -/

/-- Whether tags stand inside of the start of a tag, so that it comes together when they go, and no word
takes it or the end that follows it. -/
def LeavesTag (line : List Char) : Prop :=
  ∃ p mid r after, tags line = p ++ .plain '<' :: (mid ++ .plain '.' :: r) ∧
    Piece.text mid = "wait".toList ∧ Piece.arguments mid ≠ [] ∧
    words (Piece.text (tags line)) = words (Piece.text p) ++ (tagStart.map .plain ++ after) ∧
    '>' ∈ Piece.text after

/-- Where a line can be cut between the words that it has behind a blank, it can be cut on its own. -/
theorem words_eq_append {a b : List Char} {pieces : List Piece}
    (h : Piece.ofText blankWord? 0 (' ' :: (a ++ b)) =
      Piece.ofText blankWord? 0 (' ' :: a) ++ pieces) : words (a ++ b) = words a ++ pieces := by
  rw [ofText_blank_cons, ofText_blank_cons] at h
  by_cases ha : BeginsWord a
  · rwa [if_pos ha, if_pos (ha.append b)] at h
  · rw [if_neg ha] at h
    split at h
    · next hab =>
      obtain ⟨⟨argument, length⟩, hword⟩ := Option.ne_none_iff_exists'.1 (word?_ne_none_iff.2 hab)
      rw [words, hword] at h
      cases h
    · exact (List.cons.inj h).2

/-- A tag that is left comes from a start of a tag that was not there before. -/
theorem leavesTag_of_text_eq {front later : List Char} {after : List Piece}
    (htext : Piece.text (tags line) = front ++ (tagStart ++ later)) (hlater : '>' ∈ later)
    (hwords : words (Piece.text (tags line)) = words front ++ (tagStart.map .plain ++ after))
    (hend : '>' ∈ Piece.text after) : LeavesTag line := by
  have hstart : tagStart ++ later = '<' :: ("wait".toList ++ '.' :: later) := rfl
  rw [hstart] at htext
  obtain ⟨p, rest, hp, rfl, hrest⟩ := Piece.text_eq_append_iff.1 htext
  obtain ⟨tokens, rest, rfl, htokens, hrest⟩ := Piece.exists_of_text_eq_cons hrest
  obtain ⟨mid, rest, rfl, hmid, hrest⟩ := Piece.text_eq_append_iff.1 hrest
  obtain ⟨tokens', r, rfl, htokens', rfl⟩ := Piece.exists_of_text_eq_cons hrest
  have hmid' : Piece.text (mid ++ tokens') = "wait".toList := by
    rw [Piece.text_append, hmid, htokens', List.append_nil]
  refine ⟨p ++ tokens, mid ++ tokens', r, after, ?_, hmid', fun hnone => ?_, ?_, hend⟩
  · rw [hp, List.append_assoc, List.append_assoc]
  · have hplain := Piece.eq_map_plain_of_arguments_eq_nil hnone
    rw [hmid'] at hplain
    have hnot : tags line ≠ p ++ tokens ++ (tagStart.map .plain ++ r) := not_tags_eq hlater
    refine hnot ?_
    rw [hp, List.append_assoc, ← List.append_assoc mid, hplain]
    rfl
  · rw [hwords, Piece.text_append, htokens, List.append_nil]

theorem hasTag_remove_iff : HasTag (remove line) ↔ LeavesTag line := by
  constructor
  · intro h
    rw [remove_eq, hasTag_trim_iff] at h
    obtain ⟨before, rest, hsplit, hend⟩ := hasTag_iff.1 h
    obtain ⟨front, back, htext, -, hback, hpieces⟩ := exists_of_unworded_eq hsplit
    obtain ⟨later, rfl, rfl, hplain⟩ := exists_of_unworded_eq_append (by decide) hback
    cases front with
    | nil => cases htext
    | cons b front =>
      obtain ⟨hb, hfront⟩ := List.cons.inj htext
      change Piece.text (tags line) = front ++ (tagStart ++ later) at hfront
      rw [hfront, ← hb, hplain] at hpieces
      have hmem : '>' ∈ later := (unworded_sublist later).subset hend
      have hwords := words_eq_append hpieces
      rw [← hfront] at hwords
      exact leavesTag_of_text_eq hfront hmem hwords hend
  · rintro ⟨p, mid, r, after, -, -, -, hwords, hend⟩
    rw [remove, hasTag_trim_iff, hwords, Piece.text_append, Piece.text_append, Piece.text_map_plain]
    exact hasTag_iff.2 ⟨_, _, rfl, hend⟩

/-- Taking the tokens out of what is left changes nothing and gives no wait if and only if no tag is
left. -/
theorem remove_remove_iff (line : List Char) :
    remove (remove line) = remove line ∧ wait? (remove line) = none ↔ ¬HasTag (remove line) := by
  have hwords := words_of_not_hasWord (not_hasWord_remove line)
  constructor
  · rintro ⟨hsame, -⟩ htag
    have hlt : (remove (remove line)).length < (remove line).length :=
      calc (remove (remove line)).length
        _ ≤ (Piece.text (words (Piece.text (tags (remove line))))).length := Text.length_trim_le _
        _ ≤ (Piece.text (tags (remove line))).length := (text_words_sublist _).length_le
        _ < (remove line).length := length_text_tags_lt htag
    rw [hsame] at hlt
    exact Nat.lt_irrefl _ hlt
  · intro htag
    have htags := tags_of_not_hasTag htag
    have htrim : Text.trim (remove line) = remove line := Text.trim_trim _
    refine ⟨?_, ?_⟩
    · rw [remove, htags, Piece.text_map_plain, hwords, Piece.text_map_plain, htrim]
    · rw [wait?, htags, hwords, Piece.arguments_map_plain]
      rfl

/-- No word is left of a line, and a tag is left if and only if tags stood inside of the start of one and
no word takes it. If none is left, there is nothing more to take out and no wait to read, and otherwise
there is. -/
theorem leaves_tag_iff (line : List Char) :
    ¬HasWord (remove line) ∧ (HasTag (remove line) ↔ LeavesTag line) ∧
      (remove (remove line) = remove line ∧ wait? (remove line) = none ↔ ¬LeavesTag line) := by
  refine ⟨not_hasWord_remove line, hasTag_remove_iff, ?_⟩
  rw [← hasTag_remove_iff]
  exact remove_remove_iff line

-- A tag that comes together is part of a word here, and goes with it.
example : remove "/wait <wa<wait.1>it.2>".toList = [] := by decide

/-- The tag inside of another one goes, and the other one is whole then. -/
theorem leaves_tag_around_tag :
    let text := remove "/a <wa<wait.1>it.2>".toList
    text = "/a <wait.2>".toList ∧ HasTag text ∧ remove text = "/a".toList ∧
      wait? text = some (.ofSeconds 2) :=
  ⟨by decide, by decide, by decide, by decide +kernel⟩

end WaitToken

end Choreo
