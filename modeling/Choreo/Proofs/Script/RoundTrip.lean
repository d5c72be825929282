import Choreo.Proofs.Script.Comment
import Choreo.Proofs.Script.Language
import Choreo.Proofs.Script.WaitToken
import Choreo.Proofs.SecondsText

/-!
# Commands written as lines again

A command is written as its text and a tag with its wait. Its text can be something else when it is read
again: a quote that stood in a tag no longer hides a `#`, and an open tag ends in the new one. A text
is plain if it has nothing in it that a line would not keep. Then the line gives the command back.
-/

namespace Choreo

namespace Command

/-- Whether a text is kept when it is read as a line. -/
structure Plain (text : List Char) : Prop where
  notMarker : text.head? ≠ some '#'
  notTagged : ¬WaitToken.tagStart <:+: text
  notWorded : ¬WaitToken.HasWord text
  notCommented : ¬Comment.IsCommented text
  notDefault : Language.defaultArgument? text = none

instance (text : List Char) : Decidable (Plain text) :=
  decidable_of_iff (text.head? ≠ some '#' ∧ ¬WaitToken.tagStart <:+: text ∧
      ¬WaitToken.HasWord text ∧ ¬Comment.IsCommented text ∧
      Language.defaultArgument? text = none)
    ⟨fun ⟨h₁, h₂, h₃, h₄, h₅⟩ => ⟨h₁, h₂, h₃, h₄, h₅⟩,
      fun ⟨h₁, h₂, h₃, h₄, h₅⟩ => ⟨h₁, h₂, h₃, h₄, h₅⟩⟩

variable {c : Command} {text argument : List Char} {d : Duration}

def tail (text : List Char) (d : Duration) : List Char :=
  if text = [] then WaitToken.tag d.secondsText.toList
  else ' ' :: WaitToken.tag d.secondsText.toList

theorem toList_sourceLine (c : Command) :
    c.sourceLine.toList = c.text.toList ++ tail c.text.toList c.wait := by
  have htag : ("<wait." ++ c.wait.secondsText ++ ">").toList =
      WaitToken.tag c.wait.secondsText.toList := by
    rw [String.toList_append, String.toList_append]
    rfl
  unfold sourceLine tail
  simp only
  by_cases hempty : c.text = ""
  · have hnil : c.text.toList = [] := by rw [hempty]; rfl
    rw [if_pos hempty, if_pos hnil, hnil, htag, List.nil_append]
  · have hne : c.text.toList ≠ [] := fun hnil => hempty (String.toList_inj.1 hnil)
    rw [if_neg hempty, if_neg hne, String.toList_append, String.toList_append, htag,
      List.append_assoc]
    rfl

theorem not_mem_tail {k : Char} (hdigit : k.isDigit = false)
    (hk : k ∉ " .<wait>".toList) : k ∉ tail text d := by
  have hseconds : k ∉ d.secondsText.toList := by
    intro hmem
    rcases Duration.isDigit_of_mem_secondsText hmem with h | rfl
    · rw [hdigit] at h
      cases h
    · exact hk (by decide)
  have htag : k ∉ WaitToken.tag d.secondsText.toList := by
    intro hmem
    rcases List.mem_append.1 hmem with hmem | hend
    · rcases List.mem_append.1 hmem with hstart | hmem
      · exact hk ((show WaitToken.tagStart ⊆ " .<wait>".toList by decide) hstart)
      · exact hseconds hmem
    · exact hk (List.mem_singleton.1 hend ▸ by decide)
  unfold tail
  split
  · exact htag
  · intro hmem
    rcases List.mem_cons.1 hmem with rfl | hmem
    · exact hk (by decide)
    · exact htag hmem

theorem append_tail_ne_nil (text : List Char) (d : Duration) : text ++ tail text d ≠ [] := by
  unfold tail WaitToken.tag
  split <;> simp

theorem end_not_mem_secondsText (d : Duration) : '>' ∉ d.secondsText.toList := by
  intro hmem
  rcases Duration.isDigit_of_mem_secondsText hmem with h | h
  · cases h
  · cases h

theorem hash_not_mem_tail (text : List Char) (d : Duration) : '#' ∉ tail text d :=
  not_mem_tail rfl (by decide)

theorem trim_append_tail (htrim : Text.trim text = text) :
    Text.trim (text ++ tail text d) = text ++ tail text d := by
  have hend : (text ++ tail text d).getLast? = some '>' := by
    obtain ⟨front, hfront⟩ : ∃ front, tail text d = front ++ ['>'] := by
      unfold tail
      split
      · exact ⟨_, rfl⟩
      · exact ⟨' ' :: (WaitToken.tagStart ++ d.secondsText.toList), rfl⟩
    rw [hfront, ← List.append_assoc, List.getLast?_concat]
  cases htext : text with
  | nil =>
    rw [htext] at hend
    exact Text.trim_of_ends (c := '<') rfl rfl rfl hend
  | cons c rest =>
    rw [htext] at htrim hend
    exact Text.trim_of_ends (Text.isBlank_head?_of_trim htrim rfl) rfl rfl hend

theorem defaultArgument?_eq_none_iff :
    Language.defaultArgument? text = none ↔
      ¬("/defaultwait".toList <+: text ∧ (text.drop 12).head?.all Text.isBlank = true) := by
  unfold Language.defaultArgument?
  split
  · next h => exact iff_of_false (Option.some_ne_none _) fun hnot => hnot h
  · next h => exact iff_of_true rfl h

/-- The line of a text sets a default wait if the text does. -/
theorem defaultArgument?_append_tail :
    Language.defaultArgument? (text ++ tail text d) = none ↔
      Language.defaultArgument? text = none := by
  rw [defaultArgument?_eq_none_iff, defaultArgument?_eq_none_iff, not_iff_not]
  unfold tail
  split
  · next hempty =>
    subst hempty
    refine iff_of_false (fun h => ?_) (fun h => absurd h.1 (by decide))
    have hslash : '/' = '<' := (List.cons_prefix_cons.1 h.1).1
    exact absurd hslash (by decide)
  · have hblank : ' ' ∉ "/defaultwait".toList := by decide
    have hnext (hlength : 12 ≤ text.length) (rest : List Char) :
        ((text ++ ' ' :: rest).drop 12).head?.all Text.isBlank =
          (text.drop 12).head?.all Text.isBlank := by
      rw [List.drop_append_of_le_length hlength]
      cases text.drop 12 <;> rfl
    constructor
    · rintro ⟨hstart, hall⟩
      have hstart := WaitToken.prefix_of_prefix_append _ hblank hstart
      exact ⟨hstart, hnext hstart.length_le _ ▸ hall⟩
    · rintro ⟨hstart, hall⟩
      exact ⟨hstart.trans (List.prefix_append _ _), (hnext hstart.length_le _).trans hall⟩

theorem remove_append_tail (htrim : Text.trim text = text) (htag : ¬WaitToken.tagStart <:+: text)
    (hword : ¬WaitToken.HasWord text) : WaitToken.remove (text ++ tail text d) = text := by
  unfold tail
  split
  · next hempty =>
    rw [hempty, List.nil_append, WaitToken.remove_tag (end_not_mem_secondsText d)]
  · exact WaitToken.remove_append_tag htrim htag hword (end_not_mem_secondsText d)

/-- Tokens in the text leave less of its line. -/
theorem length_remove_append_tail_lt (h : WaitToken.tagStart <:+: text ∨ WaitToken.HasWord text) :
    (WaitToken.remove (text ++ tail text d)).length < text.length := by
  unfold tail
  split
  · next hempty =>
    subst hempty
    exact absurd h (by decide)
  · exact WaitToken.length_remove_append_tag_lt (end_not_mem_secondsText d) h

theorem waitArgument?_append_tail (htag : ¬WaitToken.tagStart <:+: text) :
    Language.waitArgument? (text ++ tail text d) = some d.secondsText.toList := by
  have hlast : (Piece.arguments (WaitToken.tags (text ++ tail text d))).getLast? =
      some d.secondsText.toList := by
    unfold tail
    split
    · next hempty =>
      rw [hempty, List.nil_append, WaitToken.tags_tag (end_not_mem_secondsText d)]
      rfl
    · exact WaitToken.getLast?_arguments_tags htag (end_not_mem_secondsText d)
  rw [Language.waitArgument?, hlast, Option.some_or]

/-! ## Reading the line -/

theorem emissions_ofText {line : String} (hline : '\n' ∉ line.toList) (hne : line ≠ "") :
    (Program.ofText line none).commands.map Language.emission =
      (Language.emission? none [] line).toList := by
  rw [Program.ofText, Text.lines_of_not_mem hline hne]
  exact (Language.Reads.of_lines none [line]).commands.trans (Language.lookBack_concat _ [] line)

theorem content?_sourceLine (htrim : Text.trim c.text.toList = c.text.toList) :
    Language.content? none [] c.sourceLine =
      if c.text.toList.head? = some '#' then none
      else some (Comment.strip (c.text.toList ++ tail c.text.toList c.wait)) := by
  have hne := append_tail_ne_nil c.text.toList c.wait
  have hhead : (c.text.toList ++ tail c.text.toList c.wait).head? = some '#' ↔
      c.text.toList.head? = some '#' := by
    cases htext : c.text.toList with
    | nil =>
      refine iff_of_false (fun h => ?_) fun h => by cases h
      exact absurd (Option.some.inj h) (show '<' ≠ '#' by decide)
    | cons k rest => rfl
  have hselected : Language.Selected none (Language.region []) = true := rfl
  unfold Language.content?
  simp only
  rw [toList_sourceLine, trim_append_tail htrim]
  by_cases hmarker : c.text.toList.head? = some '#'
  · rw [if_pos hmarker, if_neg fun h => h.2.1 (hhead.2 hmarker)]
  · rw [if_neg hmarker, if_pos ⟨hne, fun h => hmarker (hhead.1 h), hselected⟩]

/-- What is read from the line of a plain text: the text and the wait that was written. -/
theorem emission?_sourceLine (htrim : Text.trim c.text.toList = c.text.toList)
    (hplain : Plain c.text.toList) :
    ∃ default : Duration, Language.emission? none [] c.sourceLine =
      some { line := 1, text := c.text, directive := .classify c.text.toList,
             wait := (Duration.ofSecondsText? c.wait.secondsText.toList).getD default } := by
  have hcomment : ¬Comment.IsCommented (c.text.toList ++ tail c.text.toList c.wait) := fun h =>
    hplain.notCommented ((Comment.isCommented_append_iff (hash_not_mem_tail _ _)).1 h)
  have hdefault := defaultArgument?_append_tail (d := c.wait) |>.2 hplain.notDefault
  refine ⟨(Language.defaultWait? none []).getD (.ofMillis 10), ?_⟩
  unfold Language.emission?
  rw [content?_sourceLine htrim, if_neg hplain.notMarker, Comment.strip_of_not_isCommented hcomment]
  simp only
  rw [hdefault, Option.isSome_none, if_neg Bool.false_ne_true,
    remove_append_tail htrim hplain.notTagged hplain.notWorded,
    waitArgument?_append_tail hplain.notTagged, String.ofList_toList, Option.bind_some]
  rfl

/-- A line from which its text is read again has a plain text: a comment or a token would leave less
of the text, and a default wait or a marker nothing at all. -/
theorem plain_of_emission? (htrim : Text.trim c.text.toList = c.text.toList)
    {e : Language.Emission} (hemission : Language.emission? none [] c.sourceLine = some e)
    (htext : e.text = c.text) : Plain c.text.toList := by
  unfold Language.emission? at hemission
  rw [content?_sourceLine htrim] at hemission
  by_cases hmarker : c.text.toList.head? = some '#'
  · rw [if_pos hmarker] at hemission
    cases hemission
  rw [if_neg hmarker] at hemission
  simp only at hemission
  split at hemission
  · cases hemission
  next hdefault =>
  obtain rfl := Option.some.inj hemission
  have htail := hash_not_mem_tail c.text.toList c.wait
  have hlength := congrArg (fun text : String => text.toList.length) htext
  simp only [String.toList_ofList] at hlength
  have hcomment : ¬Comment.IsCommented c.text.toList := by
    intro hcommented
    have hstrip := Comment.length_strip_append_lt htail hcommented
    have hremove := (WaitToken.remove_sublist
      (Comment.strip (c.text.toList ++ tail c.text.toList c.wait))).length_le
    omega
  have hstrip := Comment.strip_of_not_isCommented fun h =>
    hcomment ((Comment.isCommented_append_iff htail).1 h)
  rw [hstrip] at hlength hdefault
  have htokens : ¬(WaitToken.tagStart <:+: c.text.toList ∨ WaitToken.HasWord c.text.toList) := by
    intro htokens
    have hshorter := length_remove_append_tail_lt (d := c.wait) htokens
    omega
  rw [not_or] at htokens
  exact ⟨hmarker, htokens.1, htokens.2, hcomment,
    defaultArgument?_append_tail.1 (Option.not_isSome_iff_eq_none.1 hdefault)⟩

/-! ## Commands of a program -/

/-- The commands of a program have trimmed texts on single lines, and their texts tell what they do. -/
theorem of_mem_commands {lines : List String} {filter : Option String}
    (hlines : ∀ line ∈ lines, '\n' ∉ line.toList)
    (hc : c ∈ (Program.compile lines filter).commands) :
    Text.trim c.text.toList = c.text.toList ∧ '\n' ∉ c.text.toList ∧
      c.directive = .classify c.text.toList := by
  have hmem : Language.emission c ∈ Language.lookBack (Language.emission? filter) lines := by
    rw [← (Language.Reads.of_lines filter lines).commands]
    exact List.mem_map_of_mem hc
  obtain ⟨before, line, after, rfl, hemission⟩ := Language.exists_of_mem_lookBack hmem
  unfold Language.emission? at hemission
  split at hemission
  · cases hemission
  next content hcontent =>
  split at hemission
  · cases hemission
  have htext : c.text = String.ofList (WaitToken.remove content) :=
    (congrArg Language.Emission.text (Option.some.inj hemission)).symm
  have hdirective : c.directive = .classify (WaitToken.remove content) :=
    (congrArg Language.Emission.directive (Option.some.inj hemission)).symm
  have hstrip : content = Comment.strip (Text.trim line.toList) := by
    unfold Language.content? at hcontent
    simp only at hcontent
    split at hcontent
    · exact (Option.some.inj hcontent).symm
    · cases hcontent
  have hsublist : (WaitToken.remove content).Sublist line.toList := by
    rw [hstrip]
    exact (WaitToken.remove_sublist _).trans
      ((Comment.strip_sublist _).trans (Text.trim_sublist _))
  rw [htext, String.toList_ofList]
  refine ⟨Text.trim_trim _, fun hmem => ?_, hdirective⟩
  exact hlines line (List.mem_append_right before List.mem_cons_self) (hsublist.subset hmem)

end Command

namespace Program

variable {c : Command}

/-- The line of a command has no line feed if its text has none. -/
theorem emissions_sourceLine (hline : '\n' ∉ c.text.toList) :
    (ofText c.sourceLine none).commands.map Language.emission =
      (Language.emission? none [] c.sourceLine).toList := by
  have htail : '\n' ∉ Command.tail c.text.toList c.wait := Command.not_mem_tail rfl (by decide)
  apply Command.emissions_ofText
  · rw [Command.toList_sourceLine]
    exact fun hmem => (List.mem_append.1 hmem).elim hline htail
  · intro hempty
    have hnil := congrArg String.toList hempty
    rw [Command.toList_sourceLine] at hnil
    exact Command.append_tail_ne_nil _ _ hnil

/-- A command with a plain text and a wait of less than `2 ^ 22` seconds is read again from its line,
with its text and with the wait to the nearest millisecond. -/
theorem ofText_sourceLine (c : Command) (htrim : Text.trim c.text.toList = c.text.toList)
    (hline : '\n' ∉ c.text.toList) (hplain : Command.Plain c.text.toList)
    (hwait : c.wait.nanos < 2 ^ 22 * 1000000000) :
    ∃ c' millis, (ofText c.sourceLine none).commands = [c'] ∧ c'.text = c.text ∧
      c'.wait = .ofMillis millis ∧ |(c'.wait.nanos : Int) - c.wait.nanos| ≤ 500000 ∧
      ∀ n, c.wait = .ofMillis n → c'.wait = c.wait := by
  obtain ⟨default, hemission⟩ := Command.emission?_sourceLine htrim hplain
  have hcommands := emissions_sourceLine hline
  rw [hemission, Option.toList_some, Duration.ofSecondsText?_secondsText hwait,
    List.map_eq_singleton_iff] at hcommands
  obtain ⟨c', hcommands, hc'⟩ := hcommands
  have htext : c'.text = c.text := congrArg Language.Emission.text hc'
  have hwait' : c'.wait = .ofMillis c.wait.thousandths := congrArg Language.Emission.wait hc'
  refine ⟨c', c.wait.thousandths, hcommands, htext, hwait', ?_, fun n hn => ?_⟩
  · have hle := Duration.thousandths_le hwait
    have hnanos : c'.wait.nanos = c.wait.thousandths * 1000000 := by
      rw [hwait', Duration.ofMillis, Duration.nanos_ofNanos]
      unfold maxNanos
      omega
    rw [hnanos]
    push_cast
    exact Duration.abs_thousandths_sub_le hwait
  · have hmillis : n * 1000000 < 2 ^ 22 * 1000000000 := by
      rw [hn, Duration.ofMillis, Duration.nanos_ofNanos] at hwait
      unfold maxNanos at hwait
      omega
    rw [hwait', hn, Duration.thousandths_ofMillis hmillis]

/-- A `#` in quotes, a word that only begins like the one for waits, and the longest wait. -/
theorem ofText_sourceLine_longest :
    let c : Command :=
      { text := "/say \"#1\" /waiting 3", line := 7, region := 2, wait := .ofMillis 4194303999,
        directive := .dispatch }
    Text.trim c.text.toList = c.text.toList ∧ '\n' ∉ c.text.toList ∧
      Command.Plain c.text.toList ∧ c.wait.nanos < 2 ^ 22 * 1000000000 ∧
      ∃ c', (ofText c.sourceLine none).commands = [c'] ∧ c'.text = "/say \"#1\" /waiting 3" ∧
        c'.wait = .ofMillis 4194303999 := by
  intro c
  have htrim : Text.trim c.text.toList = c.text.toList := by decide
  have hline : '\n' ∉ c.text.toList := by decide
  have hplain : Command.Plain c.text.toList := by decide +kernel
  have hwait : c.wait.nanos < 2 ^ 22 * 1000000000 := by decide
  obtain ⟨c', -, hcommands, htext, -, -, hexact⟩ := ofText_sourceLine c htrim hline hplain hwait
  exact ⟨htrim, hline, hplain, hwait, c', hcommands, htext, hexact 4194303999 rfl⟩

/-- A command of a program is read again from its line, with its text and with what it does, if and only
if its text is plain. -/
theorem reads_back_iff {lines : List String} {filter : Option String}
    (hlines : ∀ line ∈ lines, '\n' ∉ line.toList) (hc : c ∈ (compile lines filter).commands) :
    (∃ c', (ofText c.sourceLine none).commands = [c'] ∧ c'.text = c.text ∧
        c'.directive = c.directive) ↔ Command.Plain c.text.toList := by
  obtain ⟨htrim, hline, hdirective⟩ := Command.of_mem_commands hlines hc
  have hemissions := emissions_sourceLine hline
  constructor
  · rintro ⟨c', hcommands, htext, -⟩
    rw [hcommands, List.map_singleton] at hemissions
    have hemission : Language.emission? none [] c.sourceLine = some (Language.emission c') := by
      cases hread : Language.emission? none [] c.sourceLine with
      | none => rw [hread] at hemissions; cases hemissions
      | some e =>
        rw [hread, Option.toList_some] at hemissions
        exact congrArg some (List.cons.inj hemissions).1.symm
    exact Command.plain_of_emission? htrim hemission htext
  · intro hplain
    obtain ⟨default, hemission⟩ := Command.emission?_sourceLine htrim hplain
    rw [hemission, Option.toList_some, List.map_eq_singleton_iff] at hemissions
    obtain ⟨c', hcommands, hc'⟩ := hemissions
    exact ⟨c', hcommands, congrArg Language.Emission.text hc',
      (congrArg Language.Emission.directive hc').trans hdirective.symm⟩

/-- The plain text of a line whose comment and tag go, and whose quotes stay. -/
theorem reads_back_iff_quoted :
    (∀ line ∈ ["/say \"#1\" <wait.2> # aloud"], '\n' ∉ line.toList) ∧
      ∃ c ∈ (compile ["/say \"#1\" <wait.2> # aloud"] none).commands,
        Command.Plain c.text.toList ∧
          ∃ c', (ofText c.sourceLine none).commands = [c'] ∧ c'.text = "/say \"#1\"" ∧
            c'.directive = .dispatch := by
  have hlines : ∀ line ∈ ["/say \"#1\" <wait.2> # aloud"], '\n' ∉ line.toList := by decide
  have hcommands : (compile ["/say \"#1\" <wait.2> # aloud"] none).commands =
      [{ text := "/say \"#1\"", line := 1, region := 0, wait := .ofSeconds 2,
         directive := .dispatch }] := by
    decide +kernel
  have hc := hcommands ▸ List.mem_singleton_self _
  have hplain : Command.Plain "/say \"#1\"".toList := by decide +kernel
  exact ⟨hlines, _, hc, hplain, (reads_back_iff hlines hc).2 hplain⟩

/-- A tag that is not closed ends in the tag that is written behind it. -/
theorem reads_back_without_openTag :
    ∃ c, (compile ["/a <wait.5"] none).commands = [c] ∧ c.text = "/a <wait.5" ∧
      c.sourceLine = "/a <wait.5 <wait.0.01>" ∧
      (ofText c.sourceLine none).commands.map (·.text) = ["/a"] := by
  refine ⟨{ text := "/a <wait.5", line := 1, region := 0, wait := .ofMillis 10,
            directive := .dispatch }, ?_, rfl, ?_, ?_⟩
  · decide +kernel
  · decide +kernel
  · decide +kernel

end Program

end Choreo
